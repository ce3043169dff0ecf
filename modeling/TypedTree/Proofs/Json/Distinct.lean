import TypedTree.Json.Basic
import TypedTree.Proofs.Entries

/-!
# Documents of distinct keys

A reader of JSON enters the members of an object under their keys, so every key of an object stands
once, at every depth.
-/

namespace TypedTree.Json

/-- To show a property of all documents, show it of a document from its members. -/
@[elab_as_elim, induction_eliminator]
theorem induction {motive : Json → Prop} (null : motive null) (bool : ∀ value, motive (bool value))
    (number : ∀ value, motive (number value)) (text : ∀ value, motive (text value))
    (array : ∀ items, (∀ item ∈ items, motive item) → motive (array items))
    (object : ∀ members, (∀ member ∈ members, motive member.2) → motive (object members))
    (document : Json) : motive document :=
  Json.rec (motive_1 := motive) (motive_2 := fun items => ∀ item ∈ items, motive item)
    (motive_3 := fun members => ∀ member ∈ members, motive member.2)
    (motive_4 := fun member => motive member.2)
    null bool number text array object
    (by simp) (fun _ _ first others => List.forall_mem_cons.2 ⟨first, others⟩)
    (by simp) (fun _ _ first others => List.forall_mem_cons.2 ⟨first, others⟩)
    (fun _ _ value => value) document

/-- The keys of objects are distinct, at every depth. -/
inductive WellFormed : Json → Prop
  | null : WellFormed null
  | bool (value : Bool) : WellFormed (bool value)
  | number (value : Json.Number) : WellFormed (number value)
  | text (value : String) : WellFormed (text value)
  | array {items : List Json} : (∀ item ∈ items, WellFormed item) → WellFormed (array items)
  | object {members : List (String × Json)} : Entries.Distinct members →
      (∀ member ∈ members, WellFormed member.2) → WellFormed (object members)

attribute [simp] WellFormed.null WellFormed.bool WellFormed.number WellFormed.text

@[simp]
theorem wellFormed_array (items : List Json) :
    (array items).WellFormed ↔ ∀ item ∈ items, item.WellFormed :=
  ⟨fun formed => by cases formed; assumption, .array⟩

@[simp]
theorem wellFormed_object (members : List (String × Json)) :
    (object members).WellFormed ↔
      Entries.Distinct members ∧ ∀ member ∈ members, member.2.WellFormed :=
  ⟨fun formed => by cases formed; exact ⟨‹_›, ‹_›⟩, fun formed => .object formed.1 formed.2⟩

end TypedTree.Json
