import TypedTree.Proofs.Convert.Conformance
import TypedTree.Proofs.Schema.Slots

/-!
# Values of the stated shape

Only a tuple shape of one slot lets the shape of a value drift from the one under which it was read.
Under any other shape a value has a shape that the stated one admits, and the stated shape itself
where that leaves nothing open.
-/

namespace TypedTree.Value

/-- A document drifts only from a shape with a tuple shape of one slot in it. -/
theorem Drifts.hasSingleSlot {document : Json} {shape : Shape} (drifts : Drifts document shape) :
    shape.HasSingleSlot := by
  induction drifts with
  | spread more => exact .here _
  | slot place drifts ih =>
    cases place with
    | own size held => exact .slot (List.of_mem_zip held).2 ih
    | only more held => exact .here _
    | named found declared => exact .named (Entries.mem_of_get? declared) ih

/-- A shape that admits another one and leaves nothing open is equal to it. -/
theorem beq_of_stated {declared own : Shape} (formed : declared.WellFormed)
    (admits : declared.accepts own = true) (static : declared.hasDynamic = false) :
    own == declared :=
  Shape.beq_symm formed (Shape.beq_of_accepts static admits)

/--
A value that is read under a shape without tuple shapes of one slot has a shape that the stated one
admits, and an equal one if nothing in the stated shape is left open. Shapes that schemas without
additional items resolve to are of this kind.
-/
theorem ofJson_stated :
    (∀ {document : Json} {shape : Shape} {path : Path} {value : Value}, document.WellFormed →
      shape.WellFormed → ¬ shape.HasSingleSlot → ofJson document shape path = .ok value →
      shape.accepts value.shape = true ∧ (shape.hasDynamic = false → value.shape == shape)) ∧
    ∀ {κ : Type} [DecidableEq κ] [Schema.Digest κ] {definitions : List (String × Schema.Node)}
      {node : Schema.Node} {budget : Nat} {cache after : Memo κ Shape} {shape : Shape},
      (∀ part, Relation.ReflTransGen (Schema.Node.LeadsTo definitions) node part →
        part.additionalItems = none) →
      (∀ key kept, cache.get? key = some kept → ¬ kept.HasSingleSlot) →
      Schema.resolve definitions budget node cache = (.ok shape, after) →
      ¬ shape.HasSingleSlot ∧ ∀ key kept, after.get? key = some kept → ¬ kept.HasSingleSlot := by
  constructor
  · intro document shape path value distinct formed apart converted
    have read := reads_of_ofJson converted
    have admits := (read.accepts_iff distinct formed).2 fun drifts => apart drifts.hasSingleSlot
    exact ⟨admits, beq_of_stated formed admits⟩
  · intro κ _ _ definitions node budget cache after shape bare before given
    exact Schema.resolve_spares bare before given

/-- A list of texts. -/
def hopsNode : Schema.Node := { kind := some "array", items := some (.ofType "string") }

/-- A text and a null. -/
def hopsDocument : Json := .array [.text "a", .null]

/-- A list of texts comes to itself and to the texts. -/
theorem hopsNode_leadsTo {part : Schema.Node}
    (steps : Relation.ReflTransGen (Schema.Node.LeadsTo []) hopsNode part) :
    part = hopsNode ∨ part = .ofType "string" := by
  induction steps with
  | refl => exact .inl rfl
  | tail _ leads ih =>
    have below := Schema.Node.leadsTo_iff.1 leads
    rcases ih with rfl | rfl
    · exact .inr (List.mem_singleton.1 below)
    · cases below

/-- What is read as a list of texts has the shape to which the schema of such a list resolves. -/
theorem hops_stated : ∃ after value,
    Schema.resolve [] 2 hopsNode (.empty : Schema.Cache) = (.ok (.list .string), after) ∧
      ofJson hopsDocument (.list .string) .root = .ok value ∧
      (Shape.list .string).accepts value.shape = true ∧ value.shape == .list .string := by
  have result : (Schema.resolve [] 2 hopsNode (.empty : Schema.Cache)).1 = .ok (.list .string) := by
    cbv
  have given : Schema.resolve [] 2 hopsNode (.empty : Schema.Cache) =
      (.ok (.list .string), (Schema.resolve [] 2 hopsNode (.empty : Schema.Cache)).2) :=
    Prod.ext result rfl
  have bare : ∀ part, Relation.ReflTransGen (Schema.Node.LeadsTo []) hopsNode part →
      part.additionalItems = none := by
    intro part steps
    rcases hopsNode_leadsTo steps with rfl | rfl <;> rfl
  have apart := (ofJson_stated.2 bare Schema.KeptShapes.empty given).1
  have read : ofJson hopsDocument (.list .string) .root =
      .ok (.list .string [.text "a", .null .string]) := rfl
  have stated := ofJson_stated.1 (by simp [hopsDocument]) (by simp) apart read
  exact ⟨_, _, given, read, stated.1, stated.2 rfl⟩

end TypedTree.Value
