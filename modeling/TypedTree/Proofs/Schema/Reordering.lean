import TypedTree.Proofs.Schema.Recursion

/-!
# Documents that differ in the order of properties

The order of properties is the order in which the nodes below them are resolved. Without a table it
makes no difference: documents that agree give equal shapes within the same budgets. With a table it
decides which shapes are kept when a node is met for which there is too little budget left. So one
of two orders may succeed where the other one runs out of its budget. This is all that it decides,
and only for budgets at which both run out without a table.
-/

namespace TypedTree.Schema

/-- Documents agree when their definitions do, by name. -/
def Document.Agrees (document other : Document) : Prop :=
  Entries.Corresponds Node.Agrees document.definitions other.definitions

/-! ## Agreement from the other side -/

/-- Optional parts stand in the reverse relation when they do where they are present. -/
theorem rel_turned {α β : Type} {related : α → β → Prop} {turned : β → α → Prop} {a : Option α}
    {b : Option β} (rel : Option.Rel related a b)
    (turn : ∀ x y, a = some x → b = some y → related x y → turned y x) :
    Option.Rel turned b a := by
  cases rel with
  | none => exact .none
  | some step => exact .some (turn _ _ rfl rfl step)

/-- Agreement of nodes of distinct names can be turned round. -/
theorem Node.WellFormed.agrees_symm {a b : Node} (formed : a.WellFormed) (other : b.WellFormed)
    (agree : a.Agrees b) : b.Agrees a := by
  induction formed generalizing b with
  | @intro a distinct _ _ _ _ _ items additionalItems properties values members =>
    have turned : Entries.Corresponds Node.Agrees b.properties a.properties :=
      agree.properties.symm distinct other.distinct fun entry held _ there step =>
        properties entry held (other.property there) step
    have size := (Entries.corresponds_iff.1 turned).1
    have names := (Entries.corresponds_iff.1 turned).2.1
    have parts := (Entries.corresponds_iff.1 turned).2.2
    cases agree with
    | intro reference kind ownItems ownAdditional _ _ _ additional ownMembers intOrString
        preserveUnknown =>
      refine .intro reference.symm kind.symm ?_ ?_ size names parts ?_ ?_ intOrString.symm
        preserveUnknown.symm
      · exact rel_turned ownItems fun part _ left right => items part left (other.items right)
      · exact rel_turned ownAdditional fun part _ left right =>
          additionalItems part left (other.additionalItems right)
      · refine rel_turned additional fun _ _ left right step => ?_
        cases step with
        | allowed permitted => exact .allowed permitted
        | schema step => exact .schema (values _ left (other.values right) step)
      · exact Paired.symm ownMembers fun part held _ there =>
          members part held (other.member there)

/-! ## References in documents that agree -/

namespace Substitution

/-- An adapted definition says its type, or that it is an object. -/
theorem declaredKind?_schemaAsMap (definition : Node) :
    (schemaAsMap definition).declaredKind? = definition.declaredKind?.or (some "object") := by
  show (if definition.declaredKind?.isNone then some "object" else definition.kind).filter _ = _
  by_cases silent : definition.declaredKind?.isNone
  · rw [if_pos silent, Option.isNone_iff_eq_none.1 silent]
    rfl
  · rw [if_neg silent]
    show definition.declaredKind? = _
    cases said : definition.declaredKind? with
    | none => exact absurd (said ▸ rfl) silent
    | some kind => rfl

/-- The item schemas of the property `Property` agree when the definitions do. -/
theorem itemOfProperty?_agree {a b : Node} (formed : a.WellFormed) (agree : a.Agrees b) :
    Option.Rel Node.Agrees (itemOfProperty? a) (itemOfProperty? b) := by
  have property := agree.properties.rel_get? formed.distinct "Property"
  unfold itemOfProperty?
  generalize Entries.get? a.properties "Property" = left,
    Entries.get? b.properties "Property" = right at property
  cases property with
  | none => exact .none
  | some step =>
    cases step with
    | intro _ _ items => exact items

/-- Definitions that agree do so when they are adapted. -/
theorem schemaAsMap_agree {a b : Node} (formed : a.WellFormed) (agree : a.Agrees b) :
    (schemaAsMap a).Agrees (schemaAsMap b) := by
  have item := itemOfProperty?_agree formed agree
  have schema := agree.properties.rel_get? formed.distinct "Schema"
  have properties :
      Entries.Corresponds Node.Agrees (schemaAsMap a).properties (schemaAsMap b).properties := by
    simp only [schemaAsMap]
    generalize itemOfProperty? a = left, itemOfProperty? b = right at item
    generalize Entries.get? a.properties "Schema" = own,
      Entries.get? b.properties "Schema" = others at schema
    cases item with
    | none => exact agree.properties
    | some step =>
      cases schema with
      | none => exact agree.properties
      | some _ =>
        refine agree.properties.put formed.distinct "Schema" ?_
        exact .intro rfl rfl .none .none rfl (fun _ none => none) (fun _ none => by cases none)
          (.some (.schema step)) .nil rfl rfl
  have size := (Entries.corresponds_iff.1 properties).1
  have names := (Entries.corresponds_iff.1 properties).2.1
  have parts := (Entries.corresponds_iff.1 properties).2.2
  cases agree with
  | intro reference kind items additionalItems _ _ _ additional members intOrString
      preserveUnknown =>
    refine .intro reference ?_ items additionalItems size names parts additional members intOrString
      preserveUnknown
    rw [declaredKind?_schemaAsMap, declaredKind?_schemaAsMap, kind]

end Substitution

/-- A reference has matching forms in documents that agree. -/
theorem Document.Agrees.references {document other : Document} (agree : document.Agrees other)
    (formed : document.WellFormed) (distinct : Entries.Distinct document.definitions)
    (reference : String) :
    (Form.ofReference document.definitions reference).Matches
      (.ofReference other.definitions reference) := by
  have found := Entries.Corresponds.rel_get? agree distinct (Reference.target reference)
  have wellFormed (definition : Node)
      (here : Entries.get? document.definitions (Reference.target reference) = some definition) :
      definition.WellFormed :=
    formed _ (Entries.mem_of_get? here)
  unfold Form.ofReference
  dsimp only
  generalize Entries.get? document.definitions (Reference.target reference) = left,
    Entries.get? other.definitions (Reference.target reference) = right at found wellFormed
  cases stands : Substitution.forId? (Reference.target reference) with
  | none =>
    cases found with
    | none => exact .fault _
    | some step => exact .same step
  | some substitution =>
    cases substitution with
    | fixed node => exact .same (Substitution.wellFormed_fixed stands).agrees_self
    | adapted adapt =>
      rw [Substitution.adapted_eq stands]
      cases found with
      | none => exact .fault _
      | some step => exact .same (Substitution.schemaAsMap_agree (wellFormed _ rfl) step)

/-- Agreement of documents of distinct names can be turned round. -/
theorem Document.Agrees.symm {document other : Document} (agree : document.Agrees other)
    (formed : document.WellFormed) (formedOther : other.WellFormed)
    (distinct : Entries.Distinct document.definitions)
    (distinctOther : Entries.Distinct other.definitions) : other.Agrees document :=
  Entries.Corresponds.symm agree distinct distinctOther fun a left b right step =>
    (formed a left).agrees_symm (formedOther b right) step

/-- What agrees with a document of distinct identifiers has distinct identifiers. -/
theorem Document.Agrees.distinct {document other : Document} (agree : document.Agrees other)
    (distinct : Entries.Distinct document.definitions) : Entries.Distinct other.definitions :=
  (Entries.Corresponds.keys_perm agree distinct).nodup_iff.1 distinct

/-! ## Two outcomes -/

/-- Equal shapes, or errors on both sides. -/
inductive Concur : Except SchemaError Shape → Except SchemaError Shape → Prop
  | ok {a b : Shape} : a == b → Concur (.ok a) (.ok b)
  | error (first second : SchemaError) : Concur (.error first) (.error second)

/-- A shape on one side and a lack of budget on the other. -/
inductive Spared : Except SchemaError Shape → Except SchemaError Shape → Prop
  | left (shape : Shape) (path : Path) : Spared (.ok shape) (.error ⟨path, .recursionOverrun⟩)
  | right (path : Path) (shape : Shape) : Spared (.error ⟨path, .recursionOverrun⟩) (.ok shape)

/-- Within every budget, the shape on the one side is equal to one on the other. -/
def Covers (free other : Nat → Except SchemaError Shape) : Prop :=
  ∀ budget shape, free budget = .ok shape → ∃ again, other budget = .ok again ∧ shape == again

section Tracking

variable {free freeOther : Nat → Except SchemaError Shape} {budget : Nat}

/--
Where one of two outcomes is a shape and the other is not, this is for a lack of budget, and without
a table both would lack it.
-/
theorem Covers.spares (covers : Covers free freeOther) (steady : Steady freeOther) {shape : Shape}
    {error : SchemaError} (gives : Tracks (fun a b => a == b) free budget (.ok shape))
    (fails : Tracks (fun a b => a == b) freeOther budget (.error error)) :
    error.cause = .recursionOverrun ∧ ¬ Definite (free budget) ∧
      ¬ Definite (freeOther budget) := by
  obtain ⟨larger, similar⟩ := gives.settles (.ok shape)
  obtain ⟨own, found, _⟩ := similar.ok_right
  obtain ⟨again, there, _⟩ := covers larger own found
  have overrun : error.cause = .recursionOverrun := by
    by_contra other
    obtain ⟨sufficient, similar⟩ := fails.settles (Definite.error_iff.2 other)
    have failed := similar.error_right
    have same := steady.unique (failed ▸ Definite.error_iff.2 other) (there ▸ Definite.ok again)
    rw [failed, there] at same
    cases same
  have lacking : ¬ Definite (freeOther budget) := by
    intro definite
    have failed := (fails.complete definite).error_right
    rw [failed] at definite
    exact Definite.error_iff.1 definite overrun
  refine ⟨overrun, fun definite => lacking ?_, lacking⟩
  obtain ⟨own, found, _⟩ := (gives.complete definite).ok_right
  obtain ⟨again, there, _⟩ := covers budget own found
  exact there ▸ Definite.ok again

/-- Outcomes that track free resolutions of equal shapes concur, unless the table spared one. -/
theorem Covers.concur_or_spared (covers : Covers free freeOther) (back : Covers freeOther free)
    (steady : Steady free) (steadyOther : Steady freeOther)
    (formed : ∀ budget shape, free budget = .ok shape → shape.WellFormed)
    {outcome other : Except SchemaError Shape}
    (tracks : Tracks (fun a b => a == b) free budget outcome)
    (tracksOther : Tracks (fun a b => a == b) freeOther budget other) :
    Concur outcome other ∨
      Spared outcome other ∧ ¬ Definite (free budget) ∧ ¬ Definite (freeOther budget) := by
  cases outcome with
  | ok shape =>
    cases other with
    | ok shapeOther =>
      obtain ⟨larger, similar⟩ := tracks.settles (.ok shape)
      obtain ⟨own, found, same⟩ := similar.ok_right
      obtain ⟨largerOther, similarOther⟩ := tracksOther.settles (.ok shapeOther)
      obtain ⟨ownOther, foundOther, sameOther⟩ := similarOther.ok_right
      obtain ⟨again, there, equal⟩ := covers larger own found
      have unique := steadyOther.unique (there ▸ Definite.ok again)
        (foundOther ▸ Definite.ok ownOther)
      rw [there, foundOther] at unique
      obtain rfl := Except.ok.inj unique
      have turned : shape == own := Shape.beq_symm (formed larger own found) same
      exact .inl (.ok (Shape.beq_trans turned (Shape.beq_trans equal sameOther)))
    | error error =>
      obtain ⟨overrun, lacking⟩ := covers.spares steadyOther tracks tracksOther
      obtain ⟨path, cause⟩ := error
      obtain rfl : cause = .recursionOverrun := overrun
      exact .inr ⟨.left shape path, lacking⟩
  | error error =>
    cases other with
    | ok shape =>
      obtain ⟨overrun, lacking, lackingOther⟩ := back.spares steady tracksOther tracks
      obtain ⟨path, cause⟩ := error
      obtain rfl : cause = .recursionOverrun := overrun
      exact .inr ⟨.right path shape, lackingOther, lacking⟩
    | error errorOther => exact .inl (.error error errorOther)

end Tracking

/-! ## Resolution of nodes that agree -/

/-- Of the nodes to which a node leads, those of one key agree. -/
def Node.KeyedApart (κ : Type) [Digest κ] (definitions : List (String × Node)) (node : Node) :
    Prop :=
  ∀ a b, Relation.ReflTransGen (Node.LeadsTo definitions) node a →
    Relation.ReflTransGen (Node.LeadsTo definitions) node b → (a.key : κ) = b.key → a.Agrees b

section Resolving

variable {κ : Type} [Digest κ] {document other : Document} {node turned : Node}

/-- The nodes to which a node leads are separated when those of one key agree. -/
theorem Node.KeyedApart.separated (apart : node.KeyedApart κ document.definitions)
    (formed : document.WellFormed) (start : node.WellFormed) :
    Separated κ document.definitions
      (Relation.ReflTransGen (Node.LeadsTo document.definitions) node) where
  table := formed
  wellFormed part steps := by
    induction steps with
    | refl => exact start
    | tail _ leads ih => exact (ih.form formed).part (Node.leadsTo_iff.1 leads)
  parts _ steps _ held := steps.tail (Node.leadsTo_iff.2 held)
  agree := apart

variable [DecidableEq κ]

/-- With an empty table, resolution tracks free resolution. -/
theorem Node.KeyedApart.tracks (apart : node.KeyedApart κ document.definitions)
    (formed : document.WellFormed) (start : node.WellFormed) (budget : Nat) :
    Tracks (fun a b => a == b) (resolveFreely document.definitions · node .root) budget
      (resolve document.definitions budget node (.empty : Memo κ Shape)).1 :=
  (resolveAt_follows (apart.separated formed start) budget .refl .root .empty .empty).1

/-- Without a table, nodes that agree have equal shapes in documents that agree. -/
theorem Document.Agrees.covers (tables : document.Agrees other) (formed : document.WellFormed)
    (distinct : Entries.Distinct document.definitions) (start : node.WellFormed)
    (agree : node.Agrees turned) (path : Path) :
    Covers (resolveFreely document.definitions · node path)
      (resolveFreely other.definitions · turned path) := by
  intro budget shape found
  have given := (resolveFreely_eq_ok budget node path shape).1 found
  obtain ⟨again, there, equal⟩ :=
    given.of_references formed (tables.references formed distinct) start agree
  exact ⟨again, (resolveFreely_eq_ok budget turned path again).2 there, equal⟩

/--
Nodes of two documents, both the same but for the order of properties, are resolved with an empty
table to equal shapes, or both fail, or one has a shape and the other one runs out of the budget.
The last happens only for budgets with which both run out where no shape is kept, and from some
budget on it does not happen.
-/
theorem resolve_concurs_or_spares (formed : document.WellFormed) (formedOther : other.WellFormed)
    (distinct : Entries.Distinct document.definitions) (tables : document.Agrees other)
    (start : node.WellFormed) (startOther : turned.WellFormed) (agree : node.Agrees turned)
    (apart : node.KeyedApart κ document.definitions)
    (apartOther : turned.KeyedApart κ other.definitions) :
    (∀ budget,
      Concur (resolve document.definitions budget node (.empty : Memo κ Shape)).1
        (resolve other.definitions budget turned (.empty : Memo κ Shape)).1 ∨
      Spared (resolve document.definitions budget node (.empty : Memo κ Shape)).1
        (resolve other.definitions budget turned (.empty : Memo κ Shape)).1 ∧
      ¬ Definite (resolveFreely document.definitions budget node .root) ∧
      ¬ Definite (resolveFreely other.definitions budget turned .root)) ∧
    ∃ bound, ∀ budget ≥ bound,
      Concur (resolve document.definitions budget node (.empty : Memo κ Shape)).1
        (resolve other.definitions budget turned (.empty : Memo κ Shape)).1 := by
  have distinctOther := tables.distinct distinct
  have tablesBack := tables.symm formed formedOther distinct distinctOther
  have covers := tables.covers formed distinct start agree .root
  have back := tablesBack.covers formedOther distinctOther startOther
    (start.agrees_symm startOther agree) .root
  have wellFormed (budget : Nat) (shape : Shape)
      (found : resolveFreely document.definitions budget node .root = .ok shape) :
      shape.WellFormed :=
    ((resolveFreely_eq_ok _ _ _ _).1 found).wellFormed formed start
  have each (budget : Nat) := covers.concur_or_spared back (resolveFreely_steady node .root)
    (resolveFreely_steady turned .root) wellFormed (apart.tracks formed start budget)
    (apartOther.tracks formedOther startOther budget)
  refine ⟨each, ?_⟩
  rcases Node.endless_or_bounded document.definitions node with endless | ⟨bound, bounded⟩
  · -- without an end there is no shape on either side, whatever the budget
    have shapeless (budget : Nat) (shape : Shape) :
        resolveFreely document.definitions budget node .root ≠ .ok shape := fun found =>
      endless.not_gives budget shape ((resolveFreely_eq_ok _ _ _ _).1 found)
    refine ⟨0, fun budget _ => ?_⟩
    have tracks := apart.tracks formed start budget
    have tracksOther := apartOther.tracks formedOther startOther budget
    generalize (resolve document.definitions budget node (.empty : Memo κ Shape)).1 = outcome
      at tracks ⊢
    generalize (resolve other.definitions budget turned (.empty : Memo κ Shape)).1 = outcomeOther
      at tracksOther ⊢
    cases outcome with
    | ok shape =>
      obtain ⟨larger, similar⟩ := tracks.settles (.ok shape)
      obtain ⟨own, found, _⟩ := similar.ok_right
      exact absurd found (shapeless larger own)
    | error error =>
      cases outcomeOther with
      | ok shape =>
        obtain ⟨larger, similar⟩ := tracksOther.settles (.ok shape)
        obtain ⟨own, found, _⟩ := similar.ok_right
        obtain ⟨again, there, _⟩ := back larger own found
        exact absurd there (shapeless larger again)
      | error errorOther => exact .error error errorOther
  · refine ⟨bound, fun budget enough => ?_⟩
    have definite := (bounded.mono enough).definite .root
    exact (each budget).resolve_right fun spared => spared.2.1 definite

end Resolving

/-! ## A kept shape near the end of the budget -/

/-- Where the parts of some nodes are among them, a node leads only to these. -/
theorem Node.mem_of_leadsTo {definitions : List (String × Node)} {nodes : List Node}
    (closed : ∀ node ∈ nodes, ∀ part ∈ (node.form definitions).parts, part ∈ nodes)
    {node part : Node} (start : node ∈ nodes)
    (steps : Relation.ReflTransGen (Node.LeadsTo definitions) node part) : part ∈ nodes := by
  induction steps with
  | refl => exact start
  | tail _ leads ih => exact closed _ ih _ (Node.leadsTo_iff.1 leads)

/-- The lengths of their fingerprints may tell nodes apart. -/
theorem Node.keyedApart_of_lengths {definitions : List (String × Node)} {nodes : List Node}
    (formed : ∀ node ∈ nodes, node.WellFormed)
    (closed : ∀ node ∈ nodes, ∀ part ∈ (node.form definitions).parts, part ∈ nodes)
    (lengths : (nodes.map fun node => node.fingerprint.length).Nodup) {node : Node}
    (start : node ∈ nodes) : node.KeyedApart (List UInt8) definitions := by
  intro a b left right same
  have held := Node.mem_of_leadsTo closed start left
  have length : a.fingerprint.length = b.fingerprint.length := congrArg List.length same
  obtain rfl :=
    List.inj_on_of_nodup_map lengths held (Node.mem_of_leadsTo closed start right) length
  exact (formed a held).agrees_self

/-- A list of texts. -/
def lineNode : Node := { kind := some "array", items := some (.ofType "string") }

/-- A list of lists of texts. -/
def pageNode : Node := { kind := some "array", items := some lineNode }

/-- An object of the given properties. -/
def novelNode (properties : List (String × Node)) : Node := { kind := some "object", properties }

/-- The list of texts before the list in which it stands. -/
def lineFirst : List (String × Node) := [("line", lineNode), ("page", pageNode)]

/-- The same properties the other way round. -/
def pageFirst : List (String × Node) := [("page", pageNode), ("line", lineNode)]

/-- When the list of texts is resolved first, its shape is there for the list of such lists. -/
theorem resolve_lineFirst :
    (resolve [] 3 (novelNode lineFirst) (.empty : Cache)).1 =
      .ok (.object [("line", .list .string), ("page", .list (.list .string))]) := by cbv

/-- In the other order there is no budget left for the texts. -/
theorem resolve_pageFirst :
    (resolve [] 3 (novelNode pageFirst) (.empty : Cache)).1 =
      .error ⟨⟨[.attr "page", .attr "items", .attr "items"]⟩, .recursionOverrun⟩ := by cbv

/-- The order of properties may decide whether an object has a shape. -/
theorem order_decides_near_the_budget :
    ¬ ∀ (properties arranged : List (String × Node)) (budget : Nat), Entries.Distinct properties →
      arranged.Perm properties →
      Concur (resolve [] budget (novelNode properties) (.empty : Cache)).1
        (resolve [] budget (novelNode arranged) (.empty : Cache)).1 := by
  intro always
  have concurs := always lineFirst pageFirst 3 (by simp [lineFirst, Entries.Distinct])
    (.swap _ _ _)
  rw [resolve_lineFirst, resolve_pageFirst] at concurs
  cases concurs

/-- A document that defines the object. -/
def novelDocument (properties : List (String × Node)) : Document :=
  ⟨[("Novel", novelNode properties)]⟩

/-- What a reference to the object is resolved to within a budget, with an empty table. -/
def novelOutcome (properties : List (String × Node)) (budget : Nat) : Except SchemaError Shape :=
  (resolve (novelDocument properties).definitions budget (.referenceTo "Novel") (.empty : Cache)).1

/-- The nodes to which a reference to the object leads. -/
def novelNodes (properties : List (String × Node)) : List Node :=
  [.referenceTo "Novel", novelNode properties, lineNode, pageNode, .ofType "string"]

section Novel

variable {properties : List (String × Node)}

/-- The nodes have distinct names, in either order of the properties. -/
theorem wellFormed_novelNodes (either : properties = lineFirst ∨ properties = pageFirst) :
    ∀ node ∈ novelNodes properties, node.WellFormed := by
  have line : lineNode.WellFormed := by
    constructor <;> simp [lineNode, Node.wellFormed_ofType]
  have page : pageNode.WellFormed := by constructor <;> simp [pageNode, line]
  have book : (novelNode properties).WellFormed := by
    rcases either with rfl | rfl <;>
      constructor <;> simp [novelNode, lineFirst, pageFirst, line, page, Entries.distinct_cons]
  simp [novelNodes, Node.wellFormed_referenceTo, Node.wellFormed_ofType, line, page, book]

/-- The parts of the nodes are among them. -/
theorem closed_novelNodes (either : properties = lineFirst ∨ properties = pageFirst) :
    ∀ node ∈ novelNodes properties,
      ∀ part ∈ (node.form (novelDocument properties).definitions).parts,
        part ∈ novelNodes properties := by
  have parts : (novelNodes properties).map
      (fun node => (node.form (novelDocument properties).definitions).parts) =
        [[novelNode properties], properties.map Prod.snd, [.ofType "string"], [lineNode], []] := by
    rcases either with rfl | rfl <;> rfl
  have inner : ∀ part ∈ properties.map Prod.snd, part = lineNode ∨ part = pageNode := by
    rcases either with rfl | rfl <;> simp [lineFirst, pageFirst]
  intro node held part below
  have among := List.mem_map_of_mem
    (f := fun node => (node.form (novelDocument properties).definitions).parts) held
  rw [parts] at among
  simp only [List.mem_cons, List.not_mem_nil, or_false] at among
  rcases among with same | same | same | same | same <;> rw [same] at below
  · simp [novelNodes, List.mem_singleton.1 below]
  · rcases inner part below with rfl | rfl <;> simp [novelNodes]
  · simp [novelNodes, List.mem_singleton.1 below]
  · simp [novelNodes, List.mem_singleton.1 below]
  · cases below

/-- No two of the nodes share a fingerprint. -/
theorem keyedApart_novel (either : properties = lineFirst ∨ properties = pageFirst) :
    (Node.referenceTo "Novel").KeyedApart (List UInt8) (novelDocument properties).definitions := by
  have lengths :
      (novelNodes properties).map (fun node => node.fingerprint.length) = [25, 84, 24, 36, 12] := by
    rcases either with rfl | rfl <;> cbv
  refine Node.keyedApart_of_lengths (wellFormed_novelNodes either) (closed_novelNodes either) ?_
    List.mem_cons_self
  rw [lengths]
  decide

end Novel

/--
With four steps only the document in which the list of texts comes first is resolved; without a
table neither is, and from some budget on both are.
-/
theorem novelDocument_spared :
    (Spared (novelOutcome lineFirst 4) (novelOutcome pageFirst 4) ∧
      ¬ Definite
        (resolveFreely (novelDocument lineFirst).definitions 4 (.referenceTo "Novel") .root) ∧
      ¬ Definite
        (resolveFreely (novelDocument pageFirst).definitions 4 (.referenceTo "Novel") .root)) ∧
    ∃ bound, ∀ budget ≥ bound, Concur (novelOutcome lineFirst budget)
      (novelOutcome pageFirst budget) := by
  have formed {properties : List (String × Node)}
      (either : properties = lineFirst ∨ properties = pageFirst) :
      (novelDocument properties).WellFormed := by
    intro entry held
    obtain rfl := List.mem_singleton.1 held
    exact wellFormed_novelNodes either _ (by simp [novelNodes])
  have parts {node : Node} (held : node ∈ novelNodes lineFirst) : node.WellFormed :=
    wellFormed_novelNodes (.inl rfl) node held
  have agree : (novelDocument lineFirst).Agrees (novelDocument pageFirst) := by
    refine ⟨rfl, fun entry held => ?_⟩
    obtain rfl := List.mem_singleton.1 held
    exact ⟨novelNode pageFirst, rfl, Call.agrees_swapped (by decide)
      (parts (by simp [novelNodes])) (parts (by simp [novelNodes]))⟩
  have reference := Node.wellFormed_referenceTo "Novel"
  have both := resolve_concurs_or_spares (κ := List UInt8) (formed (.inl rfl)) (formed (.inr rfl))
    (by simp [novelDocument, Entries.Distinct]) agree reference reference reference.agrees_self
    (keyedApart_novel (.inl rfl)) (keyedApart_novel (.inr rfl))
  have found : novelOutcome lineFirst 4 =
      .ok (.object [("line", .list .string), ("page", .list (.list .string))]) := by cbv
  have failed : novelOutcome pageFirst 4 =
      .error ⟨⟨[.attr "page", .attr "items", .attr "items"]⟩, .recursionOverrun⟩ := by cbv
  refine ⟨(both.1 4).resolve_left fun concurs => ?_, both.2⟩
  change Concur (novelOutcome lineFirst 4) (novelOutcome pageFirst 4) at concurs
  rw [found, failed] at concurs
  cases concurs

end TypedTree.Schema
