import Mathlib
import TypedTree.Proofs.Value.Members

/-!
# The weight of a value

The weight counts a value and everything inside it. Equal values have equal weights, although the
comparison of sets and tables may pair their members in another order. So a value that has lost
weight is not equal to the value it came from, wherever it may have been lost.
-/

namespace TypedTree.Value

mutual

/-- How many values there are in a value, with itself. -/
def weight : Value → Nat
  | list _ items | tuple items | set _ items => weightItems items + 1
  | map _ entries | object entries => weightEntries entries + 1
  | _ => 1
termination_by structural value => value

/-- How many values there are in items. -/
def weightItems : List Value → Nat
  | [] => 0
  | item :: rest => weight item + weightItems rest
termination_by structural items => items

/-- How many values there are in entries. -/
def weightEntries : List (String × Value) → Nat
  | [] => 0
  | (_, value) :: rest => weight value + weightEntries rest
termination_by structural entries => entries

end

/-- Items weigh what they weigh one by one. -/
theorem weightItems_eq (items : List Value) : weightItems items = (items.map weight).sum := by
  induction items with
  | nil => rfl
  | cons item rest ih => simp [weightItems, ih]

/-- Entries weigh what their values weigh one by one. -/
theorem weightEntries_eq (entries : List (String × Value)) :
    weightEntries entries = ((entries.map Prod.snd).map weight).sum := by
  induction entries with
  | nil => rfl
  | cons entry rest ih => simp [weightEntries, ih]

/-- The weight of a value is made up of the weights of its members and one for itself. -/
theorem weight_eq (value : Value) : value.weight = (value.members.map weight).sum + 1 := by
  cases value <;> simp only [weight, members, weightItems_eq, weightEntries_eq] <;> rfl

/-- Every value has some weight. -/
theorem weight_pos (value : Value) : 0 < value.weight := by
  rw [weight_eq]
  exact Nat.succ_pos _

@[simp]
theorem weight_retypeNull (shape : Shape) (value : Value) :
    (value.retypeNull shape).weight = value.weight := by
  cases value <;> rfl

/-- A value weighs no less than another one, and as much only if it has a property. -/
structure Outweighs (holds : Value → Prop) (value other : Value) : Prop where
  lighter : other.weight ≤ value.weight
  balance : other.weight = value.weight → holds value

/-- Values add up to no less than what they outweigh, and to as much only if all of them hold. -/
theorem sum_weight_le {holds : Value → Prop} {as bs : List Value}
    (paired : List.Forall₂ (Outweighs holds) as bs) :
    (bs.map weight).sum ≤ (as.map weight).sum ∧
      ((bs.map weight).sum = (as.map weight).sum → ∀ a ∈ as, holds a) := by
  induction paired with
  | nil => simp
  | cons first _ ih =>
    obtain ⟨rest, restBalance⟩ := ih
    have lighter := first.lighter
    simp only [List.map_cons, List.sum_cons, List.forall_mem_cons]
    refine ⟨by omega, fun balanced => ⟨?_, ?_⟩⟩
    · exact first.balance (by omega)
    · exact restBalance (by omega)

/-- Values that are the same have the same weight. -/
theorem Same.weight_eq {a b : Value} (formed : a.WellFormed) (same : Same a b) :
    a.weight = b.weight := by
  induction a using members_induction generalizing b with
  | step a ih =>
    obtain ⟨arranged, parts, order⟩ := same.members formed
    have weights : a.members.map weight = arranged.map weight := by
      rw [← List.forall₂_eq_eq_eq, List.forall₂_map_left_iff, List.forall₂_map_right_iff]
      exact Paired.imp parts fun member held _ _ same => ih member held (formed.member held) same
    rw [Value.weight_eq a, Value.weight_eq b, weights, (order.map weight).sum_nat]

end TypedTree.Value
