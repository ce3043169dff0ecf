import TypedTree.Decimal.Basic
import Mathlib.Tactic.Positivity

/-!
# Lowest terms

Reduction drops the trailing zeros of a significand and folds their number into the exponent. It
changes nothing where there are none, and it does not see how many zeros were written out.
-/

namespace TypedTree.Decimal

/-- Dropping zeros gives back what the zeros were appended to. -/
theorem dropZeros_mul_pow {significand : Nat} (last : significand % 10 ≠ 0) (count : Nat) :
    dropZeros (significand * 10 ^ count) = (significand, count) := by
  induction count with
  | zero =>
    have present : significand ≠ 0 := by omega
    rw [dropZeros]
    simp [present, last]
  | succ count ih =>
    have present : 0 < significand := by omega
    have shifted : significand * 10 ^ (count + 1) = significand * 10 ^ count * 10 := by
      rw [Nat.pow_succ, Nat.mul_assoc]
    have positive : significand * 10 ^ count * 10 ≠ 0 := by positivity
    rw [dropZeros, shifted, if_neg positive]
    simp [ih]

/-- Appending the dropped zeros gives the significand back. -/
theorem dropZeros_value (significand : Nat) :
    (dropZeros significand).1 * 10 ^ (dropZeros significand).2 = significand := by
  fun_induction dropZeros significand with
  | case1 => rfl
  | case2 significand _ ends rest dropped split ih =>
    rw [split] at ih
    have whole : significand / 10 * 10 = significand :=
      Nat.div_mul_cancel (Nat.dvd_of_mod_eq_zero ends)
    calc
      rest * 10 ^ (dropped + 1) = rest * 10 ^ dropped * 10 := by rw [Nat.pow_succ, Nat.mul_assoc]
      _ = significand := by rw [ih, whole]
  | case3 => exact Nat.mul_one _

/-- A positive significand keeps a positive part when its zeros are dropped. -/
theorem dropZeros_pos {significand : Nat} (positive : 0 < significand) :
    0 < (dropZeros significand).1 := by
  apply Nat.pos_of_ne_zero
  intro none
  have value := dropZeros_value significand
  rw [none, Nat.zero_mul] at value
  omega

/-- Reduction drops the zeros of a positive significand and folds their number in. -/
theorem reduce_parts (negative : Bool) {significand : Nat} (exponent : Int)
    (positive : 0 < significand) :
    (reduce negative significand exponent).negative = negative ∧
      (reduce negative significand exponent).significand = (dropZeros significand).1 ∧
      (reduce negative significand exponent).exponent = exponent + (dropZeros significand).2 := by
  have kept : (dropZeros significand).1 ≠ 0 := Nat.ne_of_gt (dropZeros_pos positive)
  simp [reduce, kept]

/-- Zero is reduced to zero, whatever its sign and exponent. -/
theorem reduce_zero (negative : Bool) (exponent : Int) : reduce negative 0 exponent = zero := by
  have none : (dropZeros 0).1 = 0 := by rw [dropZeros, if_pos rfl]
  rw [reduce, dif_pos none]

/-- A decimal is what its parts are reduced to. -/
theorem reduce_self (n : Decimal) : reduce n.negative n.significand n.exponent = n := by
  obtain ⟨negative, significand, exponent, reduced⟩ := n
  by_cases last : significand % 10 = 0
  · obtain ⟨rfl, rfl, rfl⟩ := reduced last
    exact reduce_zero false 0
  · have kept := dropZeros_mul_pow last 0
    rw [Nat.pow_zero, Nat.mul_one] at kept
    have present : significand ≠ 0 := by omega
    simp [reduce, kept, present]

/-- A decimal keeps its parts when it is given another sign. -/
theorem reduce_own (n : Decimal) (negative : Bool) (positive : 0 < n.significand) :
    (reduce negative n.significand n.exponent).negative = negative ∧
      (reduce negative n.significand n.exponent).significand = n.significand ∧
      (reduce negative n.significand n.exponent).exponent = n.exponent := by
  have last : n.significand % 10 ≠ 0 := fun ends =>
    absurd (n.reduced ends).2.1 (Nat.ne_of_gt positive)
  have kept := dropZeros_mul_pow last 0
  rw [Nat.pow_zero, Nat.mul_one] at kept
  obtain ⟨sign, significand, exponent⟩ := reduce_parts negative n.exponent positive
  rw [kept] at significand exponent
  exact ⟨sign, significand, exponent.trans (Int.add_zero _)⟩

/-- Zeros may be moved from the significand to the exponent. -/
theorem reduce_mul_pow (negative : Bool) (significand zeros : Nat) (exponent : Int) :
    reduce negative (significand * 10 ^ zeros) exponent =
      reduce negative significand (exponent + zeros) := by
  by_cases none : significand = 0
  · rw [none, Nat.zero_mul, reduce_zero, reduce_zero]
  · have positive : 0 < significand := Nat.pos_of_ne_zero none
    have kept := dropZeros_pos positive
    have last : (dropZeros significand).1 % 10 ≠ 0 := fun ends =>
      absurd (dropZeros_reduced significand ends) (Nat.ne_of_gt kept)
    have all : dropZeros (significand * 10 ^ zeros) =
        ((dropZeros significand).1, (dropZeros significand).2 + zeros) := by
      conv_lhs => rw [← dropZeros_value significand, Nat.mul_assoc, ← Nat.pow_add]
      exact dropZeros_mul_pow last _
    have folded : exponent + ((dropZeros significand).2 + zeros : Nat) =
        exponent + zeros + (dropZeros significand).2 := by omega
    simp only [reduce, all, folded]

/-- A decimal in lowest terms is given back by reducing its integer value. -/
theorem reduce_eq_self (n : Decimal) (whole : n.isInteger = true) :
    reduce n.negative (n.significand * 10 ^ n.exponent.toNat) 0 = n := by
  have nonneg : 0 ≤ n.exponent := of_decide_eq_true whole
  rw [reduce_mul_pow, Int.zero_add, Int.toNat_of_nonneg nonneg]
  exact reduce_self n

/-- The digits of a positive decimal are those of its significand. -/
theorem digits_of_pos {n : Decimal} (positive : 0 < n.significand) :
    n.digits = Nat.toDigits 10 n.significand :=
  if_neg (Nat.ne_of_gt positive)

end TypedTree.Decimal
