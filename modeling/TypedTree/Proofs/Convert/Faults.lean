import TypedTree.Proofs.Convert.Contents
import TypedTree.Proofs.Convert.Dynamic
import TypedTree.Proofs.Convert.Places

/-!
# What keeps a document from being read

A document is not read under a shape because some part of it is at fault: its kind or its length is
not the one asked for, its text is no numeral, its name is not declared, or its shape is another
than that of the first member of a collection whose element shape is to be inferred. The conversion
reports the first part at fault in document order.
-/

namespace TypedTree

open ConvertError (Cause)

/-- The part of a document to which steps lead: items by position, members by name. -/
def Json.at? (document : Json) : List Step → Option Json
  | [] => some document
  | step :: steps =>
    match document, step with
    | .array items, .index position => items[position]?.bind (at? · steps)
    | .object members, .attr name | .object members, .key name =>
      (Entries.get? members name).bind (at? · steps)
    | _, _ => none

/-- Whether a document is null. -/
def Json.isNull : Json → Bool
  | .null => true
  | _ => false

/-- The shape of a document where nothing is declared. -/
def Json.inferredShape (document : Json) : Shape :=
  match Value.ofJson document .dynamic .root with
  | .ok value => value.shape
  | .error _ => .dynamic

/-- The shape of the first of several documents that is not null, if there is one. -/
def Json.leadingShape? (documents : List Json) : Option Shape :=
  (documents.find? (!·.isNull)).map Json.inferredShape

namespace Shape

/-- Whether a shape admits documents of the kind of the document. A null is admitted everywhere. -/
def admits : Shape → Json → Bool
  | _, .null | dynamic, _ => true
  | string, .text _ | number, .text _ | bool, .bool _ | number, .number _ => true
  | list _, .array _ | set _, .array _ | tuple _, .array _ => true
  | map _, .object _ | object _, .object _ => true
  | _, _ => false

/-- The step to a member of a name. -/
def memberStep : Shape → String → Step
  | map _, name => .key name
  | _, name => .attr name

/-- Where the element shape is to be inferred, that of the first member that is not null. -/
def lead? (shape : Shape) (documents : List Json) : Option Shape :=
  if shape.element?.any isDynamic then Json.leadingShape? documents else none

end Shape

/-- A part of a document in its place. -/
structure Slotted where
  document : Json
  /-- The shape of the place; a name that is not declared has none. -/
  slot : Option Shape
  /-- The shape of the first member that is not null, among members whose shape is inferred. -/
  lead : Option Shape

namespace Slotted

/-- The parts of a part in document order, each with the step to it. -/
def parts : Slotted → List (Step × Slotted)
  | ⟨.array items, some shape, _⟩ =>
    items.zipIdx.map fun item => (.index item.2,
      ⟨item.1, some (shape.itemSlot items.length item.2), shape.lead? items⟩)
  | ⟨.object members, some shape, _⟩ =>
    members.map fun member => (shape.memberStep member.1,
      ⟨member.2, shape.memberSlot? member.1, shape.lead? (members.map Prod.snd)⟩)
  | _ => []

@[simp]
theorem parts_array (items : List Json) (shape : Shape) (lead : Option Shape) :
    parts ⟨.array items, some shape, lead⟩ = items.zipIdx.map fun item => (.index item.2,
      ⟨item.1, some (shape.itemSlot items.length item.2), shape.lead? items⟩) :=
  rfl

@[simp]
theorem parts_object (members : List (String × Json)) (shape : Shape) (lead : Option Shape) :
    parts ⟨.object members, some shape, lead⟩ = members.map fun member =>
      (shape.memberStep member.1,
        ⟨member.2, shape.memberSlot? member.1, shape.lead? (members.map Prod.snd)⟩) :=
  rfl

/-- The places of a document: the document itself, then those of its items or members in order. -/
def traversal : Traversal Slotted where
  parts := parts
  smaller := by
    refine ⟨fun whole => sizeOf whole.document, fun whole part held => ?_⟩
    obtain ⟨document, slot, lead⟩ := whole
    cases slot with
    | none => cases document <;> cases held
    | some shape =>
      cases document with
      | array items =>
        obtain ⟨item, there, rfl⟩ := List.mem_map.1 held
        have smaller := List.sizeOf_lt_of_mem (List.fst_mem_of_mem_zipIdx there)
        simp only [Json.array.sizeOf_spec]
        omega
      | object members =>
        obtain ⟨⟨name, _⟩, there, rfl⟩ := List.mem_map.1 held
        have smaller := List.sizeOf_lt_of_mem there
        simp only [Prod.mk.sizeOf_spec] at smaller
        simp only [Json.object.sizeOf_spec]
        omega
      | _ => cases held

/-- The places of a document that is read under a shape. -/
def placesUnder (document : Json) (shape : Shape) : List (List Step × Slotted) :=
  traversal.places ⟨document, some shape, none⟩

end Slotted

/-- Why a part of a document is at fault in its place. -/
inductive Faulty : Slotted → Cause → Prop
  /-- The object around the part declares no attribute of its name. -/
  | undeclared (document : Json) (lead : Option Shape) :
      Faulty ⟨document, none, lead⟩ .unexpectedAttribute
  /-- The shape of the place does not admit the kind. -/
  | kind {document : Json} {shape : Shape} (lead : Option Shape) : shape.admits document = false →
      Faulty ⟨document, some shape, lead⟩ (.typeMismatch document.kindName shape.text)
  /-- The tuple neither has as many slots nor a single one that is spread over the items. -/
  | length {items : List Json} {slots : List Shape} (lead : Option Shape) :
      slots.length ≠ items.length → slots.length ≠ 1 →
      Faulty ⟨.array items, some (.tuple slots), lead⟩ (.typeMismatch
        ("sequence of " ++ toString items.length ++ " elements") (Shape.tuple slots).text)
  /-- The text stands for a number and is no numeral. -/
  | numeral {text : String} (lead : Option Shape) : Decimal.read? text = none →
      Faulty ⟨.text text, some .number, lead⟩ (.invalidNumber text)
  /-- The inferred shape is another than that of the first member that is not null. -/
  | deviation {document : Json} {lead : Shape} : document.isNull = false →
      (lead == document.inferredShape) = false →
      Faulty ⟨document, some .dynamic, some lead⟩ .inconsistentElementType

namespace Slotted

open Value (broadcasts)

/-- The cause for which a shape refuses a document as a whole, if it does. -/
def refusal? (document : Json) (shape : Shape) : Option Cause :=
  match document, shape with
  | .array items, .tuple slots =>
    if !broadcasts slots items.length && slots.length != items.length then
      some (.typeMismatch ("sequence of " ++ toString items.length ++ " elements")
        (Shape.tuple slots).text)
    else none
  | .text text, .number => if (Decimal.read? text).isSome then none else some (.invalidNumber text)
  | document, shape =>
    if shape.admits document then none
    else some (.typeMismatch document.kindName shape.text)

/-- The cause for which a part is at fault, if it is. -/
def fault? : Slotted → Option Cause
  | ⟨_, none, _⟩ => some .unexpectedAttribute
  | ⟨document, some .dynamic, some lead⟩ =>
    if document.isNull || lead == document.inferredShape then none
    else some .inconsistentElementType
  | ⟨document, some shape, _⟩ => refusal? document shape

theorem refusal?_dynamic (document : Json) : refusal? document .dynamic = none := by
  cases document <;> rfl

/-- A part without members around it is at fault when its shape refuses it. -/
theorem fault?_alone (document : Json) (shape : Shape) :
    fault? ⟨document, some shape, none⟩ = refusal? document shape := by
  cases shape <;> rfl

/-- A document that its shape refuses is at fault, whatever stands before it. -/
theorem faulty_of_refusal {document : Json} {shape : Shape} {cause : Cause} (lead : Option Shape)
    (refused : refusal? document shape = some cause) :
    Faulty ⟨document, some shape, lead⟩ cause := by
  unfold refusal? at refused
  split at refused
  · rename_i items slots
    simp only [Option.ite_none_right_eq_some, Option.some.injEq, Bool.and_eq_true,
      Bool.not_eq_true', bne_iff_ne] at refused
    obtain ⟨⟨own, other⟩, rfl⟩ := refused
    refine .length lead other fun one => ?_
    have single : items.length = 1 := by simpa [broadcasts, one] using own
    exact other (one.trans single.symm)
  · simp only [Option.ite_none_left_eq_some, Option.some.injEq, Option.not_isSome_iff_eq_none]
      at refused
    obtain ⟨unread, rfl⟩ := refused
    exact .numeral lead unread
  · simp only [Option.ite_none_left_eq_some, Option.some.injEq, Bool.not_eq_true] at refused
    obtain ⟨refused, rfl⟩ := refused
    exact .kind lead refused

/-- The parts that are at fault are those with a cause. -/
theorem fault?_eq_some {part : Slotted} {cause : Cause} :
    part.fault? = some cause ↔ Faulty part cause := by
  constructor
  · intro found
    unfold fault? at found
    split at found
    · obtain rfl := Option.some.inj found
      exact .undeclared _ _
    · simp only [Option.ite_none_left_eq_some, Option.some.injEq, Bool.or_eq_true, not_or,
        Bool.not_eq_true] at found
      obtain ⟨⟨present, other⟩, rfl⟩ := found
      exact .deviation present other
    · exact faulty_of_refusal _ found
  · intro faulty
    cases faulty with
    | undeclared document lead => rfl
    | @kind document shape lead refused =>
      cases shape <;> cases document <;> first | rfl | cases refused
    | @length items slots lead other more =>
      have own : broadcasts slots items.length = false := by simp [broadcasts, more]
      simp [fault?, refusal?, own, other]
    | numeral lead unread => simp [fault?, refusal?, unread]
    | deviation present other => simp [fault?, present, other]

theorem fault?_eq_none {part : Slotted} :
    part.fault? = none ↔ ∀ cause, ¬ Faulty part cause := by
  simp only [Option.eq_none_iff_forall_ne_some, ne_eq, fault?_eq_some]

end Slotted

namespace Value

open Slotted (placesUnder fault?)

/-- A document that the shape refuses is reported as a whole. -/
theorem ofJson_refused {document : Json} {shape : Shape} {cause : Cause}
    (refused : Slotted.refusal? document shape = some cause) (path : Path) :
    ofJson document shape path = .error ⟨path, cause⟩ := by
  cases document with
  | array items =>
    cases shape with
    | tuple slots =>
      simp only [Slotted.refusal?, Option.ite_none_right_eq_some, Option.some.injEq] at refused
      obtain ⟨short, rfl⟩ := refused
      rw [ofJson, if_pos short]
    | _ => cases refused <;> rfl
  | text known =>
    cases shape with
    | number =>
      simp only [Slotted.refusal?, Option.ite_none_left_eq_some, Option.some.injEq,
        Option.not_isSome_iff_eq_none] at refused
      obtain ⟨unread, rfl⟩ := refused
      rw [ofJson, unread]
    | _ => cases refused <;> rfl
  | _ => cases shape <;> cases refused <;> rfl

/-- The conversion of a document under a shape reports the first fault in it, at every path. -/
def FaultsFirst (document : Json) (shape : Shape) : Prop :=
  ∀ path, Reports path (firstFault? fault? (placesUnder document shape))
    (ofJson document shape path)

section Collections

variable {items : List Json} {members : List (String × Json)}

/-- Items report the first fault in them, each in its slot. -/
theorem itemsOfJson_reports (each : ∀ item ∈ items, ∀ shape, FaultsFirst item shape)
    (slot : Nat → Shape) (position : Nat) (path : Path) :
    Reports path
      (firstFault? fault? (Slotted.traversal.placesOf ((items.zipIdx position).map fun item =>
        (.index item.2, ⟨item.1, some (slot item.2), none⟩))))
      (itemsOfJson items slot position path) := by
  induction items generalizing position with
  | nil => exact .passes []
  | cons item rest ih =>
    obtain ⟨here, others⟩ := List.forall_mem_cons.1 each
    have stages : itemsOfJson (item :: rest) slot position path =
        (ofJson item (slot position) (path.push (.index position))).bind fun value =>
          (itemsOfJson rest slot (position + 1) path).map (value :: ·) := by
      rw [itemsOfJson]
      cases ofJson item (slot position) (path.push (.index position)) with
      | error error => rfl
      | ok value => cases itemsOfJson rest slot (position + 1) path <;> rfl
    simp only [List.zipIdx_cons, List.map_cons, Traversal.placesOf_cons, firstFault?_append,
      firstFault?_below, stages]
    exact (here _ _).pushed.andThen fun value _ => (ih others (position + 1)).map (value :: ·)

/-- Members report the first fault in them, and a name that is not declared in its turn. -/
theorem membersOfJson_reports (each : ∀ member ∈ members, ∀ shape, FaultsFirst member.2 shape)
    (step : String → Step) (slot : String → Option Shape) (path : Path) :
    Reports path
      (firstFault? fault? (Slotted.traversal.placesOf (members.map fun member =>
        (step member.1, ⟨member.2, slot member.1, none⟩))))
      (membersOfJson members step slot path) := by
  induction members with
  | nil => exact .passes []
  | cons member rest ih =>
    obtain ⟨here, others⟩ := List.forall_mem_cons.1 each
    simp only [List.map_cons, Traversal.placesOf_cons, firstFault?_append, firstFault?_below]
    cases declared : slot member.1 with
    | none =>
      have undeclared := (Reports.here (α := List (String × Value)) (path.push (step member.1))
        .unexpectedAttribute).pushed
      rw [Traversal.places_eq, firstFault?_cons, membersOfJson]
      simp only [declared]
      exact undeclared
    | some shape =>
      have stages : membersOfJson (member :: rest) step slot path =
          (ofJson member.2 shape (path.push (step member.1))).bind fun value =>
            (membersOfJson rest step slot path).map ((member.1, value) :: ·) := by
        rw [membersOfJson]
        simp only [declared]
        cases ofJson member.2 shape (path.push (step member.1)) with
        | error error => rfl
        | ok value => cases membersOfJson rest step slot path <;> rfl
      rw [stages]
      exact (here shape _).pushed.andThen fun value _ => (ih others).map ((member.1, value) :: ·)

end Collections

/-! ## Members whose shape is inferred -/

/-- A document that reads as a value has the shape of the value. -/
theorem Reads.inferredShape {document : Json} {value : Value}
    (read : Reads document .dynamic value) : document.inferredShape = value.shape := by
  rw [Json.inferredShape, read]

/-- A document reads as null when it is null. -/
theorem Reads.isNull_eq {document : Json} {shape : Shape} {value : Value}
    (read : Reads document shape value) : value.isNull = document.isNull := by
  have same := read.isNull_iff
  cases document <;> simp_all [Json.isNull]

/-- The parts of a part do not depend on what stands before it. -/
theorem parts_lead (document : Json) (slot : Option Shape) (lead other : Option Shape) :
    Slotted.parts ⟨document, slot, lead⟩ = Slotted.parts ⟨document, slot, other⟩ := by
  cases slot with
  | none => cases document <;> rfl
  | some shape => cases document <;> rfl

/-- In a document that is read where nothing is declared, only its own shape can be at fault. -/
theorem firstFault?_inferred {document : Json} (reports : FaultsFirst document .dynamic)
    (lead : Option Shape) :
    firstFault? fault? (Slotted.traversal.places ⟨document, some .dynamic, lead⟩) =
      (fault? ⟨document, some .dynamic, lead⟩).map fun cause => ([], cause) := by
  obtain ⟨value, read⟩ := exists_reads_dynamic document
  have clear := (reports .root).ok_iff.1 ⟨value, read .root⟩
  rw [placesUnder, Traversal.places_eq, firstFault?_cons] at clear
  have inside := (Option.or_eq_none_iff.1 clear).2
  have same : Slotted.traversal.parts ⟨document, some .dynamic, lead⟩ =
      Slotted.traversal.parts ⟨document, some .dynamic, none⟩ := parts_lead _ _ _ _
  rw [Traversal.places_eq, firstFault?_cons, same, inside, Option.or_none]

section Inference

variable {children : List (Step × Json)} {values : List Value}

/-- The places of members whose shape is inferred, where the first that is not null is known. -/
def inferredPlaces (lead : Option Shape) (children : List (Step × Json)) :
    List (List Step × Slotted) :=
  Slotted.traversal.placesOf
    (children.map fun child => (child.1, ⟨child.2, some .dynamic, lead⟩))

/-- Inference reports the first member whose shape differs from the one that was found. -/
theorem inferElement_reports (each : ∀ child ∈ children, FaultsFirst child.2 .dynamic)
    (parts : List.Forall₂ (fun child value => Reads child.2 .dynamic value) children values)
    (lead : Shape) (path : Path) :
    Reports path (firstFault? fault? (inferredPlaces (some lead) children))
      ((inferElement (some lead) ((children.map Prod.fst).zip values)).mapError fun step =>
        (⟨path.push step, .inconsistentElementType⟩ : ConvertError)) := by
  induction parts with
  | nil => exact .passes lead
  | @cons child value children values read parts ih =>
    obtain ⟨here, others⟩ := List.forall_mem_cons.1 each
    have rest := ih others
    rw [inferredPlaces, List.map_cons, Traversal.placesOf_cons, firstFault?_append,
      firstFault?_below, firstFault?_inferred here]
    simp only [fault?, read.inferredShape, ← read.isNull_eq, List.map_cons, List.zip_cons_cons,
      inferElement]
    cases absent : value.isNull with
    | true => simpa [inferredPlaces] using rest
    | false =>
      cases same : lead == value.shape with
      | true => simpa [inferredPlaces, same] using rest
      | false =>
        have here := (Reports.here (α := Shape) (path.push child.1) .inconsistentElementType).pushed
        simpa [same, Except.mapError] using here

/-- From its start, inference reports the first member whose shape differs from the first one. -/
theorem inferElement_none_reports (children : List (Step × Json))
    (each : ∀ child ∈ children, FaultsFirst child.2 .dynamic)
    (parts : List.Forall₂ (fun child value => Reads child.2 .dynamic value) children values)
    (distinct : ∀ child ∈ children, child.2.WellFormed) (path : Path) :
    Reports path
      (firstFault? fault? (inferredPlaces (Json.leadingShape? (children.map Prod.snd)) children))
      ((inferElement none ((children.map Prod.fst).zip values)).mapError fun step =>
        (⟨path.push step, .inconsistentElementType⟩ : ConvertError)) := by
  induction parts with
  | nil => exact .passes Shape.dynamic
  | @cons child value children values read parts ih =>
    obtain ⟨here, others⟩ := List.forall_mem_cons.1 each
    obtain ⟨own, formed⟩ := List.forall_mem_cons.1 distinct
    rw [inferredPlaces, List.map_cons, Traversal.placesOf_cons, firstFault?_append,
      firstFault?_below, firstFault?_inferred here]
    cases absent : value.isNull with
    | true =>
      have null : child.2.isNull = true := read.isNull_eq.symm.trans absent
      have lead : Json.leadingShape? ((child :: children).map Prod.snd) =
          Json.leadingShape? (children.map Prod.snd) := by
        simp [Json.leadingShape?, null]
      have clear : fault? ⟨child.2, some .dynamic, Json.leadingShape? (children.map Prod.snd)⟩ =
          none := by
        cases Json.leadingShape? (children.map Prod.snd) with
        | none => exact Slotted.refusal?_dynamic child.2
        | some shape => simp [fault?, null]
      rw [lead, clear]
      simpa [inferElement, absent, inferredPlaces] using ih others formed
    | false =>
      have present : child.2.isNull = false := read.isNull_eq.symm.trans absent
      have lead : Json.leadingShape? ((child :: children).map Prod.snd) = some value.shape := by
        simp [Json.leadingShape?, present, read.inferredShape]
      -- the first member that is not null is compared with itself
      have same := Shape.beq_refl (read.wellFormed own .dynamic).shape
      have clear : fault? ⟨child.2, some .dynamic, some value.shape⟩ = none := by
        simp [fault?, read.inferredShape, same]
      have rest := inferElement_reports others parts value.shape path
      rw [lead, clear]
      simpa [inferElement, absent, inferredPlaces] using rest

end Inference

section Inferring

variable {items : List Json} {members : List (String × Json)}

/-- Items whose shape is inferred report the first that deviates, as unification does. -/
theorem homogeneous_reports (make : Shape → List Value → Value) {values : List Value}
    (each : ∀ item ∈ items, FaultsFirst item .dynamic)
    (parts : List.Forall₂ (Reads · .dynamic ·) items values)
    (distinct : ∀ item ∈ items, item.WellFormed) (path : Path) :
    Reports path
      (firstFault? fault? (Slotted.traversal.placesOf (items.zipIdx.map fun item =>
        (.index item.2, ⟨item.1, some .dynamic, Json.leadingShape? items⟩))))
      (homogeneous make .dynamic values path) := by
  have documents : (items.zipIdx.map fun item => (Step.index item.2, item.1)).map Prod.snd =
      items := by
    rw [List.map_map]
    exact List.zipIdx_map_fst 0 items
  have steps : ((items.zipIdx.map fun item => (Step.index item.2, item.1)).map Prod.fst).zip
      values = indexed values := by
    apply List.ext_getElem
    · simp [indexed, parts.length_eq]
    · intro position _ _
      simp [indexed]
  have made : homogeneous make .dynamic values path =
      ((inferElement none (indexed values)).mapError fun step =>
        (⟨path.push step, .inconsistentElementType⟩ : ConvertError)).map fun element =>
          make element (values.map (Value.retypeNull element)) := by
    unfold homogeneous unify
    cases inferElement none (indexed values) <;> rfl
  have reports := inferElement_none_reports
    (items.zipIdx.map fun item => (Step.index item.2, item.1))
    (List.forall_mem_map.2 fun item held => each item.1 (List.fst_mem_of_mem_zipIdx held))
    (List.forall₂_map_left_iff.2 ((forall₂_zipIdx (Reads · .dynamic ·) _ _ _).2 parts))
    (List.forall_mem_map.2 fun item held => distinct item.1 (List.fst_mem_of_mem_zipIdx held))
    path
  rw [documents, steps, inferredPlaces, List.map_map] at reports
  rw [made]
  exact reports.map _

/-- Members whose shape is inferred report the first that deviates, as unification does. -/
theorem homogeneousMap_reports {entries : List (String × Value)}
    (each : ∀ member ∈ members, FaultsFirst member.2 .dynamic)
    (parts : List.Forall₂ (ReadsMember fun _ => some .dynamic) members entries)
    (distinct : ∀ member ∈ members, member.2.WellFormed) (path : Path) :
    Reports path
      (firstFault? fault? (Slotted.traversal.placesOf (members.map fun member =>
        (.key member.1, ⟨member.2, some .dynamic, Json.leadingShape? (members.map Prod.snd)⟩))))
      (homogeneousMap .dynamic entries path) := by
  have documents : (members.map fun member => (Step.key member.1, member.2)).map Prod.snd =
      members.map Prod.snd := by
    rw [List.map_map]
    rfl
  have steps : ((members.map fun member => (Step.key member.1, member.2)).map Prod.fst).zip
      (entries.map Prod.snd) = keyed entries := by
    have names := congrArg (List.map Step.key) (ReadsMember.keys_eq parts)
    rw [Entries.keys, Entries.keys, List.map_map, List.map_map] at names
    rw [List.map_map, keyed, ← List.zip_map']
    exact congrArg (List.zip · _) names
  have made : homogeneousMap .dynamic entries path =
      ((inferElement none (keyed entries)).mapError fun step =>
        (⟨path.push step, .inconsistentElementType⟩ : ConvertError)).map fun element =>
          Value.map element (entries.map fun entry => (entry.1, entry.2.retypeNull element)) := by
    unfold homogeneousMap unify
    cases inferElement none (keyed entries) <;> rfl
  have reports := inferElement_none_reports
    (members.map fun member => (Step.key member.1, member.2))
    (List.forall_mem_map.2 each)
    (List.forall₂_map_left_iff.2 (List.forall₂_map_left_iff.1 (ReadsMember.values parts)))
    (List.forall_mem_map.2 distinct) path
  rw [documents, steps, inferredPlaces, List.map_map] at reports
  rw [made]
  exact reports.map _

end Inferring

/-! ## The first fault -/

/-- A document that its shape refuses is the first fault in it. -/
theorem FaultsFirst.of_refusal {document : Json} {shape : Shape} {cause : Cause}
    (refused : Slotted.refusal? document shape = some cause) : FaultsFirst document shape := by
  intro path
  rw [ofJson_refused refused, placesUnder, Traversal.places_eq, firstFault?_cons,
    Slotted.fault?_alone, refused]
  exact .here path cause

/-- In a document that its shape does not refuse the first fault is that of its parts. -/
theorem firstFault?_parts {document : Json} {shape : Shape}
    (accepted : Slotted.refusal? document shape = none) :
    firstFault? fault? (placesUnder document shape) =
      firstFault? fault?
        (Slotted.traversal.placesOf (Slotted.parts ⟨document, some shape, none⟩)) := by
  rw [placesUnder, Traversal.places_eq, firstFault?_cons, Slotted.fault?_alone, accepted]
  rfl

/-- Only for a collection of plain `dynamic` elements is a shape inferred. -/
theorem lead?_eq_none {shape : Shape} (known : shape.element? ≠ some .dynamic)
    (documents : List Json) : shape.lead? documents = none := by
  unfold Shape.lead?
  cases own : shape.element? with
  | none => rfl
  | some element => cases element <;> first | rfl | exact absurd own known

section Array

variable {items : List Json} (each : ∀ item ∈ items, ∀ shape, FaultsFirst item shape)
include each

/-- The items of an array are read in the slots of its shape, where none is to be inferred. -/
theorem items_report (shape : Shape) (known : shape.element? ≠ some .dynamic) {slot : Nat → Shape}
    (slots : shape.itemSlot items.length = slot) (path : Path) :
    Reports path
      (firstFault? fault?
        (Slotted.traversal.placesOf (Slotted.parts ⟨.array items, some shape, none⟩)))
      (itemsOfJson items slot 0 path) := by
  have reports := itemsOfJson_reports each slot 0 path
  rw [Slotted.parts_array, slots, lead?_eq_none known]
  exact reports

/-- Under the shape of a list or set an array reports the first fault in it. -/
theorem FaultsFirst.collection (make : Shape → List Value → Value) {shape element : Shape}
    (distinct : ∀ item ∈ items, item.WellFormed) (own : shape.element? = some element)
    (slots : shape.itemSlot items.length = fun _ => element)
    (accepted : Slotted.refusal? (.array items) shape = none)
    (stages : ∀ path, ofJson (.array items) shape path =
      (itemsOfJson items (fun _ => element) 0 path).bind fun values =>
        homogeneous make element values path) : FaultsFirst (.array items) shape := by
  intro path
  rw [firstFault?_parts accepted, stages]
  by_cases inferred : element = .dynamic
  · subst inferred
    obtain ⟨values, parts⟩ := Paired.exists_of_forall fun item (_ : item ∈ items) =>
      exists_reads_dynamic item
    have lead : shape.lead? items = Json.leadingShape? items := by
      rw [Shape.lead?, own]
      rfl
    rw [(itemsOfJson_uniform items .dynamic path values).2 parts, Slotted.parts_array, slots, lead]
    exact homogeneous_reports make (fun item held => each item held .dynamic) parts distinct path
  · have known : shape.element? ≠ some .dynamic := by
      rw [own]
      exact fun same => inferred (Option.some.inj same)
    have made (values : List Value) : homogeneous make element values path =
        .ok (make element (values.map (Value.retypeNull element))) := by
      rw [homogeneous, unify_declared inferred]
    simp only [made]
    exact (items_report each shape known slots path).map _

/-- Every array reports the first fault in it. -/
theorem FaultsFirst.array (distinct : ∀ item ∈ items, item.WellFormed) (shape : Shape) :
    FaultsFirst (.array items) shape := by
  cases refused : Slotted.refusal? (.array items) shape with
  | some cause => exact .of_refusal refused
  | none =>
    cases shape with
    | list element =>
      refine FaultsFirst.collection each list distinct rfl rfl refused fun path => ?_
      rw [ofJson]
      cases itemsOfJson items (fun _ => element) 0 path <;> rfl
    | set element =>
      refine FaultsFirst.collection each set distinct rfl rfl refused fun path => ?_
      rw [ofJson]
      cases itemsOfJson items (fun _ => element) 0 path <;> rfl
    | tuple slots =>
      intro path
      have accepted := refused
      simp only [Slotted.refusal?, ite_eq_right_iff, reduceCtorEq, imp_false] at accepted
      have stages : ofJson (.array items) (.tuple slots) path =
          (itemsOfJson items (slotAt slots items.length) 0 path).map tuple := by
        rw [ofJson, if_neg accepted]
        cases itemsOfJson items (slotAt slots items.length) 0 path <;> rfl
      rw [firstFault?_parts refused, stages]
      exact (items_report each (.tuple slots) nofun rfl path).map tuple
    | dynamic =>
      intro path
      have stages : ofJson (.array items) .dynamic path =
          (itemsOfJson items (fun _ => .dynamic) 0 path).map inferSequence := by
        rw [ofJson]
        cases itemsOfJson items (fun _ => .dynamic) 0 path <;> rfl
      rw [firstFault?_parts refused, stages]
      exact (items_report each .dynamic nofun rfl path).map inferSequence
    | _ => cases refused

end Array

section Object

variable {members : List (String × Json)}
  (each : ∀ member ∈ members, ∀ shape, FaultsFirst member.2 shape)
include each

/-- The members of an object are read in the slots of its shape, where none is to be inferred. -/
theorem members_report (shape : Shape) (known : shape.element? ≠ some .dynamic)
    {step : String → Step} {slot : String → Option Shape} (steps : shape.memberStep = step)
    (slots : shape.memberSlot? = slot) (path : Path) :
    Reports path
      (firstFault? fault?
        (Slotted.traversal.placesOf (Slotted.parts ⟨.object members, some shape, none⟩)))
      (membersOfJson members step slot path) := by
  have reports := membersOfJson_reports each step slot path
  rw [Slotted.parts_object, steps, slots, lead?_eq_none known]
  exact reports

/-- Every object reports the first fault in it. -/
theorem FaultsFirst.object (distinct : ∀ member ∈ members, member.2.WellFormed) (shape : Shape) :
    FaultsFirst (.object members) shape := by
  cases refused : Slotted.refusal? (.object members) shape with
  | some cause => exact .of_refusal refused
  | none =>
    intro path
    rw [firstFault?_parts refused]
    cases shape with
    | object attributes =>
      have stages : ofJson (.object members) (.object attributes) path =
          (membersOfJson members .attr (Entries.get? attributes) path).map fun entries =>
            Value.object (entries ++ missingAttributes attributes entries) := by
        rw [ofJson]
        cases membersOfJson members .attr (Entries.get? attributes) path <;> rfl
      rw [stages]
      exact (members_report each (.object attributes) nofun rfl rfl path).map _
    | map element =>
      by_cases inferred : element = .dynamic
      · subst inferred
        obtain ⟨entries, parts⟩ := exists_readsMembers_dynamic fun member (_ : member ∈ members) =>
          exists_reads_dynamic member.2
        rw [ofJson, (membersOfJson_reads members .key _ path entries).2 parts]
        exact homogeneousMap_reports (fun member held => each member held .dynamic) parts distinct
          path
      · have known : (Shape.map element).element? ≠ some .dynamic := fun same =>
          inferred (Option.some.inj same)
        have made (entries : List (String × Value)) : homogeneousMap element entries path =
            .ok (Value.map element
              (entries.map fun entry => (entry.1, entry.2.retypeNull element))) := by
          rw [homogeneousMap, unify_declared inferred]
        have stages : ofJson (.object members) (.map element) path =
            (membersOfJson members .key (fun _ => some element) path).map fun entries =>
              Value.map element
                (entries.map fun entry => (entry.1, entry.2.retypeNull element)) := by
          rw [ofJson]
          simp only [made]
          cases membersOfJson members .key (fun _ => some element) path <;> rfl
        rw [stages]
        exact (members_report each (.map element) known rfl rfl path).map _
    | dynamic =>
      have stages : ofJson (.object members) .dynamic path =
          (membersOfJson members .attr (fun _ => some .dynamic) path).map Value.object := by
        rw [ofJson]
        cases membersOfJson members .attr (fun _ => some .dynamic) path <;> rfl
      rw [stages]
      exact (members_report each .dynamic nofun rfl rfl path).map _
    | _ => cases refused

end Object

/-- The inward conversion reports the first fault in document order. -/
theorem ofJson_reports {document : Json} (distinct : document.WellFormed) (shape : Shape) :
    FaultsFirst document shape := by
  induction document generalizing shape with
  | null =>
    intro path
    rw [firstFault?_parts (by cases shape <;> rfl)]
    exact .passes _
  | bool known =>
    cases refused : Slotted.refusal? _ shape with
    | some cause => exact .of_refusal refused
    | none =>
      intro path
      rw [firstFault?_parts refused]
      cases shape <;> cases refused <;> exact .passes _
  | number known =>
    cases refused : Slotted.refusal? (.number known) shape with
    | some cause => exact .of_refusal refused
    | none =>
      intro path
      -- every number is read, so it is refused for its shape only
      have admitted : shape = .number ∨ shape = .dynamic := by
        cases shape <;> first | exact .inl rfl | exact .inr rfl | cases refused
      have read := (reads_number known shape _).2 ⟨admitted, rfl⟩
      rw [firstFault?_parts refused, read path]
      exact .passes _
  | text known =>
    cases refused : Slotted.refusal? (.text known) shape with
    | some cause => exact .of_refusal refused
    | none =>
      intro path
      rw [firstFault?_parts refused]
      cases shape with
      | number =>
        cases numeral : Decimal.read? known with
        | none => simp [Slotted.refusal?, numeral] at refused
        | some n =>
          rw [ofJson, numeral]
          exact .passes _
      | _ => cases refused <;> exact .passes _
  | array items ih =>
    rw [Json.wellFormed_array] at distinct
    exact .array (fun item held => ih item held (distinct item held)) distinct shape
  | object members ih =>
    rw [Json.wellFormed_object] at distinct
    exact .object (fun member held => ih member held (distinct.2 member held)) distinct.2 shape

end Value

end TypedTree
