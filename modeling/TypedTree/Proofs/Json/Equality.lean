import TypedTree.Json.Basic
import TypedTree.Proofs.Decimal.Positional
import TypedTree.Proofs.Entries

/-!
# Equality of documents

Documents are compared as JSON is: the members of objects by key, in any order, and numbers by kind
and value, so that both zeros of the doubles are one.
-/

namespace TypedTree

/-- Two zeros, or the same number twice. -/
inductive Json.Number.Same : Json.Number → Json.Number → Prop
  | refl (value : Json.Number) : Same value value
  | zero (negative other : Bool) : Same (.float (.zero negative)) (.float (.zero other))

/-- Numbers that are the same stand for one decimal. -/
theorem Json.Number.Same.ofJson_eq {a b : Json.Number} (same : a.Same b) :
    Decimal.ofJson a = Decimal.ofJson b := by
  cases same with
  | refl => rfl
  | zero negative other =>
    exact (Decimal.ofBinary64_of_rank rfl).trans (Decimal.ofBinary64_of_rank rfl).symm

namespace Json

/-- Equality of documents, whatever the order of members. -/
inductive Same : Json → Json → Prop
  | null : Same null null
  | bool (value : Bool) : Same (bool value) (bool value)
  | number {a b : Json.Number} : a.Same b → Same (number a) (number b)
  | text (value : String) : Same (text value) (text value)
  | array {as bs : List Json} : List.Forall₂ Same as bs → Same (array as) (array bs)
  | object {as bs : List (String × Json)} : as.length = bs.length →
      (∀ member ∈ as, member.1 ∈ Entries.keys bs) →
      (∀ member ∈ as, ∀ value, Entries.get? bs member.1 = some value → Same member.2 value) →
      Same (object as) (object bs)

@[simp]
theorem null_same (document : Json) : Same null document ↔ document = null :=
  ⟨fun same => by cases same; rfl, fun same => same ▸ .null⟩

@[simp]
theorem bool_same (known : Bool) (document : Json) :
    Same (bool known) document ↔ document = bool known :=
  ⟨fun same => by cases same; rfl, fun same => same ▸ .bool known⟩

@[simp]
theorem text_same (known : String) (document : Json) :
    Same (text known) document ↔ document = text known :=
  ⟨fun same => by cases same; rfl, fun same => same ▸ .text known⟩

/-- What equals a number is a number. -/
theorem number_same (known : Json.Number) (document : Json) :
    Same (number known) document ↔ ∃ other, document = number other ∧ known.Same other := by
  constructor
  · intro same
    cases same with
    | number same => exact ⟨_, rfl, same⟩
  · rintro ⟨other, rfl, same⟩
    exact .number same

/-- Arrays are compared item by item. -/
theorem array_same (items : List Json) (document : Json) :
    Same (array items) document ↔
      ∃ others, document = array others ∧ List.Forall₂ Same items others := by
  constructor
  · intro same
    cases same with
    | array parts => exact ⟨_, rfl, parts⟩
  · rintro ⟨others, rfl, parts⟩
    exact .array parts

/-- Objects are compared key by key. -/
theorem object_same (members : List (String × Json)) (document : Json) :
    Same (object members) document ↔
      ∃ others, document = object others ∧ Entries.Corresponds Same members others := by
  constructor
  · intro same
    cases same with
    | object size present matching =>
      refine ⟨_, rfl, Entries.corresponds_iff.2 ⟨size, fun key held => ?_, matching⟩⟩
      obtain ⟨value, there⟩ := (Entries.mem_keys members key).1 held
      exact present _ there
  · rintro ⟨others, rfl, matching⟩
    obtain ⟨size, present, parts⟩ := Entries.corresponds_iff.1 matching
    exact .object size (fun member held => present _ (List.mem_map_of_mem held)) parts

end Json
end TypedTree
