import TypedTree.Proofs.Convert.Faults

/-!
# Faults under equal shapes

Equal shapes may declare their attributes in different orders. The places of a document are then the
same, each in a slot of an equal shape, and what is at fault in the one slot is at fault in the
other for a cause of the same kind: only the text of the shape that is asked for may read
differently.
-/

namespace TypedTree

/-- Causes of one kind. The texts of equal shapes may list the attributes in different orders. -/
inductive ConvertError.Cause.SameKind : ConvertError.Cause → ConvertError.Cause → Prop
  | typeMismatch (got want other : String) : SameKind (.typeMismatch got want)
      (.typeMismatch got other)
  | same (cause : ConvertError.Cause) : SameKind cause cause

open ConvertError (Cause)

namespace Shape

section Slots

variable {shape other : Shape} (formed : shape.WellFormed) (same : shape == other)
include same

/-- Equal shapes have equal slots for the items of an array. -/
theorem itemSlot_beq (count position : Nat) :
    shape.itemSlot count position == other.itemSlot count position := by
  cases equal_of_beq same with
  | list parts | set parts => exact parts
  | @tuple slots others parts =>
    have spread : Value.broadcasts slots count = Value.broadcasts others count := by
      rw [Value.broadcasts, Value.broadcasts, parts.length_eq]
    simp only [itemSlot, Value.slotAt, spread]
    generalize (if Value.broadcasts others count = true then 0 else position) = place
    clear same spread
    induction parts generalizing place with
    | nil => rfl
    | cons first _ ih =>
      cases place with
      | zero => exact first
      | succ place => simpa using ih place
  | _ => rfl

/-- Equal shapes lead to their members by the same steps. -/
theorem memberStep_eq : shape.memberStep = other.memberStep := by
  cases equal_of_beq same <;> rfl

/-- Equal shapes ask for the same leading shapes. -/
theorem lead?_eq (documents : List Json) : shape.lead? documents = other.lead? documents := by
  have dynamic {element other : Shape} (same : element == other) :
      element.isDynamic = other.isDynamic := by
    cases equal_of_beq same <;> rfl
  have inferred : shape.element?.any isDynamic = other.element?.any isDynamic := by
    cases equal_of_beq same with
    | list parts | set parts | map parts => exact dynamic parts
    | _ => rfl
  rw [lead?, lead?, inferred]

include formed

/-- Equal shapes declare the same names, with equal shapes. -/
theorem memberSlot?_rel (name : String) :
    Option.Rel (fun slot other => slot.WellFormed ∧ slot == other) (shape.memberSlot? name)
      (other.memberSlot? name) := by
  cases equal_of_beq same with
  | map parts => exact .some ⟨(wellFormed_map _).1 formed, parts⟩
  | @object attributes others parts =>
    rw [wellFormed_object] at formed
    have slots := parts.rel_get? formed.1 name
    have known (slot : Shape) (found : Entries.get? attributes name = some slot) :
        slot.WellFormed := formed.2 _ (Entries.mem_of_get? found)
    simp only [memberSlot?]
    generalize Entries.get? attributes name = slot, Entries.get? others name = again at slots known
    cases slots with
    | none => exact .none
    | some same => exact .some ⟨known _ rfl, same⟩
  | _ => exact .some ⟨.dynamic, rfl⟩

/-- A declared name is declared by every equal shape, with an equal shape. -/
theorem exists_memberSlot? {name : String} {slot : Shape}
    (declared : shape.memberSlot? name = some slot) :
    ∃ next, other.memberSlot? name = some next ∧ slot.WellFormed ∧ slot == next := by
  have slots := memberSlot?_rel formed same name
  rw [declared] at slots
  generalize other.memberSlot? name = again at slots
  cases slots with
  | some known => exact ⟨_, rfl, known⟩

end Slots

/-- The slots of a well-formed shape are well-formed. -/
theorem WellFormed.itemSlot {shape : Shape} (formed : shape.WellFormed) (count position : Nat) :
    (shape.itemSlot count position).WellFormed := by
  cases formed with
  | list known | set known => exact known
  | @tuple slots known =>
    simp only [Shape.itemSlot, Value.slotAt]
    generalize (if Value.broadcasts slots count = true then 0 else position) = place
    cases found : slots[place]? with
    | none => exact .dynamic
    | some slot => exact known slot (List.mem_of_getElem? found)
  | _ => exact .dynamic

end Shape

namespace Slotted

/-- One document in slots of equal shapes, or in none. -/
inductive Alike : Slotted → Slotted → Prop
  | declared (document : Json) {shape other : Shape} (lead : Option Shape) : shape.WellFormed →
      shape == other → Alike ⟨document, some shape, lead⟩ ⟨document, some other, lead⟩
  | undeclared (document : Json) (lead : Option Shape) :
      Alike ⟨document, none, lead⟩ ⟨document, none, lead⟩

/-- Equal shapes have the parts of a document in equal slots. -/
theorem Alike.parts {part other : Slotted} (alike : Alike part other) :
    List.Forall₂ (fun part other => part.1 = other.1 ∧ Alike part.2 other.2) part.parts
      other.parts := by
  cases alike with
  | undeclared document lead => cases document <;> exact .nil
  | @declared document shape other lead formed same =>
    cases document with
    | array items =>
      rw [parts_array, parts_array, List.forall₂_map_left_iff, List.forall₂_map_right_iff,
        Shape.lead?_eq same]
      exact List.forall₂_same.2 fun item _ => ⟨rfl, .declared item.1 _
        (formed.itemSlot items.length item.2) (Shape.itemSlot_beq same items.length item.2)⟩
    | object members =>
      rw [parts_object, parts_object, List.forall₂_map_left_iff, List.forall₂_map_right_iff,
        Shape.lead?_eq same, Shape.memberStep_eq same]
      refine List.forall₂_same.2 fun member _ => ⟨rfl, ?_⟩
      have slots := Shape.memberSlot?_rel formed same member.1
      generalize shape.memberSlot? member.1 = slot, other.memberSlot? member.1 = again at slots
      cases slots with
      | none => exact .undeclared member.2 _
      | some known => exact .declared member.2 _ known.1 known.2
    | _ => exact .nil

/-- Equal shapes refuse a document for the same kind of cause. -/
theorem refusal?_rel (document : Json) {shape other : Shape} (same : shape == other) :
    Option.Rel Cause.SameKind (refusal? document shape) (refusal? document other) := by
  have own (refused : Option Cause) : Option.Rel Cause.SameKind refused refused := by
    cases refused with
    | none => exact .none
    | some cause => exact .some (.same cause)
  cases Shape.equal_of_beq same with
  | @tuple slots others parts =>
    cases document with
    | array items =>
      have spread : Value.broadcasts slots items.length = Value.broadcasts others items.length := by
        rw [Value.broadcasts, Value.broadcasts, parts.length_eq]
      simp only [refusal?, spread, parts.length_eq]
      split
      · exact .some (.typeMismatch _ _ _)
      · exact .none
    | null => exact .none
    | _ => exact .some (.typeMismatch _ _ _)
  | list | set | map | object =>
    cases document <;> first | exact .none | exact .some (.typeMismatch _ _ _)
  | _ => exact own _

/-- Parts in slots of equal shapes are at fault for the same kind of cause. -/
theorem Alike.fault?_rel {part other : Slotted} (alike : Alike part other) :
    Option.Rel Cause.SameKind part.fault? other.fault? := by
  cases alike with
  | undeclared document lead => exact .some (.same _)
  | @declared document shape other lead formed same =>
    have refusals := refusal?_rel document same
    cases Shape.equal_of_beq same with
    | dynamic =>
      cases fault? ⟨document, some .dynamic, lead⟩ with
      | none => exact .none
      | some cause => exact .some (.same cause)
    | _ => exact refusals

end Slotted

namespace Value

/--
Under equal shapes a document fails in the same way, whatever the order in which the shapes declare
their attributes: at the same path, for a cause of the same kind.
-/
theorem ofJson_error_of_beq {document : Json} {shape other : Shape} (distinct : document.WellFormed)
    (formed : shape.WellFormed) (same : shape == other) {path : Path} {error : ConvertError}
    (failed : ofJson document shape path = .error error) :
    ∃ again, ofJson document other path = .error again ∧ again.path = error.path ∧
      error.cause.SameKind again.cause := by
  have places : Traversal.Parallel Slotted.Alike (Slotted.placesUnder document shape)
      (Slotted.placesUnder document other) :=
    Traversal.places_parallel (fun _ _ alike => Slotted.Alike.parts alike)
      (.declared document none formed same)
  have faults := firstFault?_parallel places fun _ _ alike => alike.fault?_rel
  exact (ofJson_reports distinct shape path).parallel (ofJson_reports distinct other path) faults
    failed

end Value
end TypedTree
