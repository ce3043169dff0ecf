import TypedTree.Proofs.Convert.Faults

/-!
# The first fault in a document

An error of the inward conversion names a place that exists in the document, where the document is
at fault in the shape of that place. Everything before that place is free of faults, and what does
not contain it is read. Neither the place nor the cause depends on the path, nor does the value of a
conversion that succeeds.
-/

namespace TypedTree

open ConvertError (Cause)

namespace Slotted

/-- A step to a part leads into the document of the part. -/
theorem at?_part {whole part : Slotted} {step : Step} (held : (step, part) ∈ whole.parts)
    (distinct : whole.document.WellFormed) :
    part.document.WellFormed ∧
      ∀ steps, whole.document.at? (step :: steps) = part.document.at? steps := by
  obtain ⟨document, slot, lead⟩ := whole
  cases slot with
  | none => cases document <;> cases held
  | some shape =>
    cases document with
    | array items =>
      rw [Json.wellFormed_array] at distinct
      obtain ⟨⟨item, position⟩, there, same⟩ := List.mem_map.1 held
      cases same
      have found : items[position]? = some item := List.mem_zipIdx_iff_getElem?.1 there
      refine ⟨distinct item (List.mem_of_getElem? found), fun steps => ?_⟩
      rw [Json.at?, found, Option.bind_some]
    | object members =>
      rw [Json.wellFormed_object] at distinct
      obtain ⟨⟨name, member⟩, there, same⟩ := List.mem_map.1 held
      cases same
      have found : Entries.get? members name = some member :=
        Entries.get?_of_mem distinct.1 there
      refine ⟨distinct.2 _ there, fun steps => ?_⟩
      cases shape <;> simp only [Shape.memberStep, Json.at?, found, Option.bind_some]
    | _ => cases held

/-- Every place is the part of the document to which its steps lead. -/
theorem at?_places {whole place : Slotted} {steps : List Step}
    (held : (steps, place) ∈ traversal.places whole) (distinct : whole.document.WellFormed) :
    place.document.WellFormed ∧ whole.document.at? steps = some place.document := by
  induction steps generalizing whole with
  | nil =>
    obtain rfl := Traversal.nil_mem.1 held
    exact ⟨distinct, rfl⟩
  | cons step steps ih =>
    obtain ⟨part, own, inside⟩ := Traversal.cons_mem.1 held
    obtain ⟨formed, leads⟩ := at?_part own distinct
    rw [leads]
    exact ih inside formed

/-- What is not at fault among members whose shape is inferred is not at fault by itself. -/
theorem fault?_alone_eq_none {document : Json} {shape : Shape} {lead : Option Shape}
    (clear : fault? ⟨document, some shape, lead⟩ = none) :
    fault? ⟨document, some shape, none⟩ = none := by
  cases shape with
  | dynamic => exact refusal?_dynamic document
  | _ => exact clear

end Slotted

namespace Value

open Slotted (placesUnder fault?)

/-- A place without a fault in it is read under its shape. -/
theorem reads_of_clear {place : Slotted} (distinct : place.document.WellFormed)
    (clear : ∀ inner ∈ Slotted.traversal.places place, fault? inner.2 = none) :
    ∃ shape value, place.slot = some shape ∧ Reads place.document shape value := by
  obtain ⟨document, slot, lead⟩ := place
  cases slot with
  | none => cases clear _ Traversal.self_mem
  | some shape =>
    have none : firstFault? fault? (placesUnder document shape) = none := by
      rw [firstFault?_eq_none]
      intro inner held
      rw [placesUnder, Traversal.places_eq] at held
      rcases List.mem_cons.1 held with rfl | inside
      · exact Slotted.fault?_alone_eq_none (clear _ Traversal.self_mem)
      · have same : Slotted.traversal.parts ⟨document, some shape, lead⟩ =
            Slotted.traversal.parts ⟨document, some shape, .none⟩ := parts_lead _ _ _ _
        apply clear
        rw [Traversal.places_eq, same]
        exact List.mem_cons_of_mem _ inside
    obtain ⟨value, converted⟩ := (ofJson_reports distinct shape .root).ok_iff.2 none
    exact ⟨shape, value, rfl, reads_of_ofJson converted⟩

/--
Either a document is read, with one value at every path, or it has a first place at fault in
document order, and at every path the error is the cause of that fault at that place. What precedes
the place is not at fault, and it is read unless the place is inside it.
-/
theorem ofJson_first_fault {document : Json} (distinct : document.WellFormed) (shape : Shape) :
    (∃ value, ∀ path, ofJson document shape path = .ok value) ∨
      ∃ before steps place after cause,
        placesUnder document shape = before ++ (steps, place) :: after ∧
        document.at? steps = some place.document ∧
        Faulty place cause ∧ cause ≠ .inexactNumber ∧ cause ≠ .unknownValue ∧
        (∀ earlier ∈ before, (∀ cause, ¬ Faulty earlier.2 cause) ∧
          (¬ earlier.1 <+: steps → ∃ slot value, earlier.2.slot = some slot ∧
            ∀ path, ofJson earlier.2.document slot path = .ok value)) ∧
        ∀ path, ofJson document shape path = .error ⟨path.under steps, cause⟩ := by
  have reports := ofJson_reports distinct shape
  cases found : firstFault? fault? (placesUnder document shape) with
  | none =>
    obtain ⟨value, converted⟩ := (reports .root).ok_iff.2 found
    exact .inl ⟨value, reads_of_ofJson converted⟩
  | some fault =>
    obtain ⟨steps, cause⟩ := fault
    obtain ⟨before, place, after, split, clear, own⟩ := firstFault?_eq_some.1 found
    have faulty := Slotted.fault?_eq_some.1 own
    have here : (steps, place) ∈ placesUnder document shape := by
      rw [split]
      exact List.mem_append_right _ List.mem_cons_self
    refine .inr ⟨before, steps, place, after, cause, split, (Slotted.at?_places here distinct).2,
      faulty, ?_, ?_, ?_, ?_⟩
    · rintro rfl
      cases faulty
    · rintro rfl
      cases faulty
    · intro earlier held
      refine ⟨Slotted.fault?_eq_none.1 (clear earlier held), fun apart => ?_⟩
      have there : earlier ∈ placesUnder document shape := by
        rw [split]
        exact List.mem_append_left _ held
      exact reads_of_clear (Slotted.at?_places there distinct).1 fun inner inside =>
        clear (earlier.1 ++ inner.1, inner.2) (Traversal.mem_before split held apart inside)
    · intro path
      exact ((reports path).error_iff _).2 ⟨steps, cause, found, rfl⟩

/-- A name behind ports of several shapes. -/
def portsDocument : Json :=
  .object [("ports", .array [.null, .int 80, .text "http", .bool true]), ("name", .int 7)]

/-- A name that is a text and ports of one shape. -/
def portsShape : Shape := .object [("name", .string), ("ports", .list .dynamic)]

/-- The second port that is not null comes before the name, and it is what is reported. -/
theorem portsDocument_first_fault :
    portsDocument.WellFormed ∧ ∃ place,
      portsDocument.at? [.attr "ports", .index 2] = some place.document ∧
      Faulty place .inconsistentElementType ∧
      ∀ path, ofJson portsDocument portsShape path =
        .error ⟨path.under [.attr "ports", .index 2], .inconsistentElementType⟩ := by
  have distinct : portsDocument.WellFormed := by simp [portsDocument, Json.int, Entries.Distinct]
  have own : ofJson portsDocument portsShape .root =
      .error ⟨⟨[.attr "ports", .index 2]⟩, .inconsistentElementType⟩ := by cbv
  rcases ofJson_first_fault distinct portsShape with
    ⟨value, read⟩ | ⟨before, steps, place, after, cause, -, leads, faulty, -, -, -, fails⟩
  · rw [read] at own
    cases own
  · rw [fails] at own
    obtain ⟨same, rfl⟩ := ConvertError.mk.inj (Except.error.inj own)
    obtain rfl : steps = [.attr "ports", .index 2] := congrArg Path.steps same
    exact ⟨distinct, place, leads, faulty, fails⟩

end Value

end TypedTree
