import TypedTree.Proofs.Schema.Reordering

/-!
# What does not decide about shapes

The key of a node leaves out the order of properties, formats, resource kinds and types that are
empty. Without a table, none of these has a part in resolution either, wherever it stands: in the
node, in a definition that a reference names, or in one that is adapted before it is resolved. So a
shape that is kept under a key is one that every node of the key would be given.
-/

namespace TypedTree.Schema

/--
Where the shapes on either side are covered by the other, both have equal shapes or both fail.
-/
theorem Covers.concur {free freeOther : Nat → Except SchemaError Shape}
    (covers : Covers free freeOther) (back : Covers freeOther free) (budget : Nat) :
    Concur (free budget) (freeOther budget) := by
  cases left : free budget with
  | ok shape =>
    obtain ⟨again, there, equal⟩ := covers budget shape left
    rw [there]
    exact .ok equal
  | error first =>
    cases right : freeOther budget with
    | ok shape =>
      obtain ⟨again, here, _⟩ := back budget shape right
      rw [left] at here
      cases here
    | error second => exact .error first second

/--
Nodes of two documents that differ, at whatever depth, only in the order of properties, in formats,
in resource kinds and in types that are empty or absent are resolved without a table to equal
shapes, or both fail, within every budget.
-/
theorem resolveFreely_concurs {document other : Document} {node turned : Node}
    (formed : document.WellFormed) (formedOther : other.WellFormed)
    (distinct : Entries.Distinct document.definitions) (tables : document.Agrees other)
    (start : node.WellFormed) (startOther : turned.WellFormed) (agree : node.Agrees turned)
    (budget : Nat) (path : Path) :
    Concur (resolveFreely document.definitions budget node path)
      (resolveFreely other.definitions budget turned path) := by
  have distinctOther := tables.distinct distinct
  have tablesBack := tables.symm formed formedOther distinct distinctOther
  have covers := tables.covers formed distinct start agree path
  have back := tablesBack.covers formedOther distinctOther startOther
    (start.agrees_symm startOther agree) path
  exact covers.concur back budget

/-! ## Crates with and without annotations -/

/-- A weight, which says how it is written. -/
def weightNode : Node := { kind := some "number", format := some "double" }

/-- A crate with a label and a weight, which describes a resource kind. -/
def crateNode : Node :=
  { kind := some "object", properties := [("label", .ofType "string"), ("weight", weightNode)],
    kinds := [⟨"", "v1", "Crate"⟩] }

/-- A crate that says nothing but its properties, in the other order. -/
def plainCrateNode : Node :=
  { kind := some "object",
    properties := [("weight", .ofType "number"), ("label", .ofType "string")] }

/-- A list of crates. -/
def cratesNode : Node := { kind := some "array", items := some (.referenceTo "Crate") }

/-- Names beside schemas, in the given order, of a type that is given. -/
def schemasNode (kind : Option String) (properties : List (String × Node)) : Node :=
  { kind, properties }

/-- The properties of names beside schemas. -/
def schemasFirst : List (String × Node) := [("Schema", {}), ("Property", cratesNode)]

/-- The same properties the other way round. -/
def schemasLast : List (String × Node) := [("Property", cratesNode), ("Schema", {})]

/-- Crates and names beside schemas, with annotations. -/
def crateDocument : Document :=
  ⟨[("Crate", crateNode), (Substitution.namesOrSchemas, schemasNode (some "") schemasFirst)]⟩

/-- The same definitions without annotations and the other way round. -/
def plainCrateDocument : Document :=
  ⟨[(Substitution.namesOrSchemas, schemasNode none schemasLast), ("Crate", plainCrateNode)]⟩

theorem wellFormed_weightNode : weightNode.WellFormed := by
  constructor <;> simp [weightNode]

theorem wellFormed_cratesNode : cratesNode.WellFormed := by
  constructor <;> simp [cratesNode, Node.wellFormed_referenceTo]

theorem wellFormed_crateDocument : crateDocument.WellFormed := by
  have crate : crateNode.WellFormed := by
    constructor <;> simp [crateNode, Node.wellFormed_ofType, wellFormed_weightNode,
      Entries.distinct_cons]
  have schemas : (schemasNode (some "") schemasFirst).WellFormed := by
    constructor <;> simp [schemasNode, schemasFirst, Node.wellFormed_empty, wellFormed_cratesNode,
      Entries.distinct_cons]
  simp [Document.WellFormed, crateDocument, crate, schemas]

theorem wellFormed_plainCrateDocument : plainCrateDocument.WellFormed := by
  have crate : plainCrateNode.WellFormed := by
    constructor <;> simp [plainCrateNode, Node.wellFormed_ofType, Entries.distinct_cons]
  have schemas : (schemasNode none schemasLast).WellFormed := by
    constructor <;> simp [schemasNode, schemasLast, Node.wellFormed_empty, wellFormed_cratesNode,
      Entries.distinct_cons]
  simp [Document.WellFormed, plainCrateDocument, crate, schemas]

/-- How a weight is written does not matter, and neither does the order in which it stands. -/
theorem agrees_crateNode : crateNode.Agrees plainCrateNode := by
  have weight : weightNode.Agrees (.ofType "number") :=
    .intro rfl rfl .none .none rfl nofun nofun .none .nil rfl rfl
  refine .intro rfl rfl .none .none rfl (by simp [crateNode, plainCrateNode])
    (fun entry held other found => ?_) .none .nil rfl rfl
  simp only [crateNode, List.mem_cons, List.not_mem_nil, or_false] at held
  rcases held with rfl | rfl
  · obtain rfl : Node.ofType "string" = other := by
      simpa [plainCrateNode, Entries.get?] using found
    exact (Node.wellFormed_ofType _).agrees_self
  · obtain rfl : Node.ofType "number" = other := by
      simpa [plainCrateNode, Entries.get?] using found
    exact weight

/-- An empty type counts as none, and the order of the two properties does not matter. -/
theorem agrees_schemasNode :
    (schemasNode (some "") schemasFirst).Agrees (schemasNode none schemasLast) := by
  refine .intro rfl rfl .none .none rfl (by simp [schemasNode, schemasFirst, schemasLast])
    (fun entry held other found => ?_) .none .nil rfl rfl
  simp only [schemasNode, schemasFirst, List.mem_cons, List.not_mem_nil, or_false] at held
  rcases held with rfl | rfl
  · obtain rfl : ({} : Node) = other := by
      simpa [schemasNode, schemasLast, Entries.get?] using found
    exact Node.wellFormed_empty.agrees_self
  · obtain rfl : cratesNode = other := by
      simpa [schemasNode, schemasLast, Entries.get?] using found
    exact wellFormed_cratesNode.agrees_self

/-- The documents define the same, by name. -/
theorem agrees_crateDocument : crateDocument.Agrees plainCrateDocument := by
  refine ⟨rfl, fun entry held => ?_⟩
  simp only [crateDocument, List.mem_cons, List.not_mem_nil, or_false] at held
  rcases held with rfl | rfl
  · exact ⟨plainCrateNode, rfl, agrees_crateNode⟩
  · exact ⟨schemasNode none schemasLast, rfl, agrees_schemasNode⟩

/-- What names beside schemas are resolved to within a budget, without a table. -/
def schemasOutcome (document : Document) (budget : Nat) : Except SchemaError Shape :=
  resolveFreely document.definitions budget (.referenceTo Substitution.namesOrSchemas) .root

/--
Within six steps both documents have equal shapes for names beside schemas, and within five neither
has one.
-/
theorem crates_resolved_alike :
    (Concur (schemasOutcome crateDocument 6) (schemasOutcome plainCrateDocument 6) ∧
      schemasOutcome crateDocument 6 =
        .ok (.object [("Schema", .map (.object [("label", .string), ("weight", .number)])),
          ("Property", .list (.object [("label", .string), ("weight", .number)]))])) ∧
    Concur (schemasOutcome crateDocument 5) (schemasOutcome plainCrateDocument 5) ∧
      schemasOutcome crateDocument 5 =
        .error ⟨⟨[.attr "Schema", .attr "additionalProperties", .attr "label"]⟩,
          .recursionOverrun⟩ := by
  have reference := Node.wellFormed_referenceTo Substitution.namesOrSchemas
  have concur (budget : Nat) :
      Concur (schemasOutcome crateDocument budget) (schemasOutcome plainCrateDocument budget) :=
    resolveFreely_concurs wellFormed_crateDocument wellFormed_plainCrateDocument
      (by simp [crateDocument, Entries.Distinct]; decide) agrees_crateDocument reference reference
      reference.agrees_self budget .root
  exact ⟨⟨concur 6, by cbv⟩, concur 5, by cbv⟩

end TypedTree.Schema
