import TypedTree.Proofs.Json.Distinct

/-!
# Documents without nulls

Pruning takes the nulls out of a document. The members of arrays and objects are pruned first and
those of which nothing is left are taken out; an array or object that had members and loses them all
that way is taken out itself, while one that was empty stays.
-/

namespace TypedTree

/-- What is left of some members: nothing if there were any and all of them were lost. -/
def remaining {α β : Type} (members : List α) (kept : List β) : Option (List β) :=
  if !members.isEmpty && kept.isEmpty then none else some kept

section Remaining

variable {α β γ δ : Type} {members : List α} {kept result : List β}

/-- Members remain when there were none to lose or some were kept. -/
theorem remaining_eq_some :
    remaining members kept = some result ↔ (members = [] ∨ kept ≠ []) ∧ result = kept := by
  cases members <;> cases kept <;> simp [remaining, eq_comm]

/-- Of equally many members of which related ones are kept, related ones remain. -/
theorem remaining_rel {R : List β → List δ → Prop} {others : List γ} {left : List δ}
    (size : members.length = others.length) (keptSize : kept.length = left.length)
    (same : R kept left) :
    Option.Rel R (remaining members kept) (remaining others left) := by
  have empty : members.isEmpty = others.isEmpty := by
    rw [Bool.eq_iff_iff, List.isEmpty_iff_length_eq_zero, List.isEmpty_iff_length_eq_zero, size]
  have keptEmpty : kept.isEmpty = left.isEmpty := by
    rw [Bool.eq_iff_iff, List.isEmpty_iff_length_eq_zero, List.isEmpty_iff_length_eq_zero, keptSize]
  unfold remaining
  rw [empty, keptEmpty]
  split
  · exact .none
  · exact .some same

/-- What is made of related values is related where a step on the values says so. -/
theorem rel_map {R : α → β → Prop} {S : γ → δ → Prop} {left : α → γ} {right : β → δ}
    {a : Option α} {b : Option β} (same : Option.Rel R a b)
    (step : ∀ a b, R a b → S (left a) (right b)) :
    Option.Rel S (a.map left) (b.map right) := by
  cases same with
  | none => exact .none
  | some same => exact .some (step _ _ same)

end Remaining

namespace Json

mutual

/-- The document without nulls; `none` if nothing is left of it. -/
def prune : Json → Option Json
  | null => none
  | bool value => some (bool value)
  | number value => some (number value)
  | text value => some (text value)
  | array items => (remaining items (pruneItems items)).map array
  | object members => (remaining members (pruneMembers members)).map object
termination_by structural document => document

/-- What is left of items, in order. -/
def pruneItems : List Json → List Json
  | [] => []
  | item :: rest => (prune item).toList ++ pruneItems rest
termination_by structural items => items

/-- What is left of members, under their names and in order. -/
def pruneMembers : List (String × Json) → List (String × Json)
  | [] => []
  | (name, value) :: rest =>
    (prune value).toList.map (fun kept => (name, kept)) ++ pruneMembers rest
termination_by structural members => members

end

end Json
end TypedTree
