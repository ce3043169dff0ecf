import Mathlib.Algebra.Order.Field.Power
import Mathlib.Data.Rat.Cast.CharZero
import Mathlib.Tactic.FieldSimp
import Mathlib.Tactic.Linarith
import TypedTree.Proofs.Decimal.Doubles

/-!
# Decimals as rational numbers

The rational number that a decimal, a numeral and a double denote. Reduction keeps the value, and
lowest terms are unique: two decimals of one value are one decimal.
-/

namespace TypedTree

/-- A magnitude with its sign. -/
def signed (negative : Bool) (magnitude : ℚ) : ℚ := if negative then -magnitude else magnitude

theorem signed_zero (negative : Bool) : signed negative 0 = 0 := by
  cases negative
  · rfl
  · exact neg_zero

/-- A common factor may be taken out behind the sign. -/
theorem signed_mul (negative : Bool) (magnitude factor : ℚ) :
    signed negative (magnitude * factor) = signed negative magnitude * factor := by
  cases negative
  · rfl
  · exact (neg_mul magnitude factor).symm

/-- A signed integer has the value of its magnitude with the sign. -/
theorem cast_signed (negative : Bool) (magnitude : Nat) :
    ((if negative then -(magnitude : Int) else magnitude : Int) : ℚ) =
      signed negative magnitude := by
  cases negative
  · exact Int.cast_natCast magnitude
  · exact Int.cast_neg (magnitude : Int)

/-- The size of a signed magnitude is the magnitude. -/
theorem abs_signed (negative : Bool) {magnitude : ℚ} (nonneg : 0 ≤ magnitude) :
    |signed negative magnitude| = magnitude := by
  cases negative
  · exact abs_of_nonneg nonneg
  · exact (abs_neg magnitude).trans (abs_of_nonneg nonneg)

/-- The distance between two magnitudes of one sign. -/
theorem abs_signed_sub (negative : Bool) (a b : ℚ) :
    |signed negative a - signed negative b| = |a - b| := by
  cases negative
  · rfl
  · show |-a - -b| = |a - b|
    rw [neg_sub_neg, abs_sub_comm]

/-- A magnitude and its sign are told by the signed number, zero apart. -/
theorem eq_of_signed_eq {negative other : Bool} {a b : ℚ} (low : 0 ≤ a) (least : 0 ≤ b)
    (same : signed negative a = signed other b) : a = b ∧ (negative = other ∨ a = 0) := by
  cases negative <;> cases other <;> simp only [signed, Bool.false_eq_true, ↓reduceIte] at same
  · exact ⟨same, .inl rfl⟩
  · have zero : a = 0 := by linarith only [low, least, same]
    have both : b = 0 := by linarith only [zero, same]
    exact ⟨zero.trans both.symm, .inr zero⟩
  · have zero : a = 0 := by linarith only [low, least, same]
    have both : b = 0 := by linarith only [zero, same]
    exact ⟨zero.trans both.symm, .inr zero⟩
  · exact ⟨neg_inj.1 same, .inl rfl⟩

namespace Decimal

/-- The rational number that a decimal denotes. -/
def value (n : Decimal) : ℚ := signed n.negative (n.significand * 10 ^ n.exponent)

/-- A power of ten is split along its exponent. -/
theorem ten_zpow_add (a b : Int) : (10 : ℚ) ^ (a + b) = 10 ^ a * 10 ^ b :=
  zpow_add₀ (by norm_num) a b

/-- A power of ten is made whole by the power that was taken off it. -/
theorem ten_zpow_sub_mul (a : Int) (b : Nat) : (10 : ℚ) ^ (a - b) * 10 ^ b = 10 ^ a := by
  rw [← zpow_natCast, ← ten_zpow_add, Int.sub_add_cancel]

theorem ten_zpow_pos (exponent : Int) : (0 : ℚ) < 10 ^ exponent := zpow_pos (by norm_num) exponent

/-- Reduction keeps the value. -/
theorem value_reduce (negative : Bool) (significand : Nat) (exponent : Int) :
    (reduce negative significand exponent).value =
      signed negative (significand * 10 ^ exponent) := by
  by_cases zero : significand = 0
  · have same : (reduce negative significand exponent).value = 0 := by
      rw [zero, reduce_zero]
      simp [value, Decimal.zero, signed]
    rw [same, zero, Nat.cast_zero, zero_mul, signed_zero]
  · obtain ⟨sign, kept, moved⟩ := reduce_parts negative exponent (Nat.pos_of_ne_zero zero)
    have split : (significand : ℚ) =
        (dropZeros significand).1 * 10 ^ (dropZeros significand).2 := by
      exact_mod_cast (dropZeros_value significand).symm
    have power : (10 : ℚ) ^ (exponent + (dropZeros significand).2) =
        10 ^ exponent * 10 ^ (dropZeros significand).2 := by
      rw [ten_zpow_add, zpow_natCast]
    unfold value
    rw [sign, kept, moved, power, split]
    congr 1
    ring

/-- Parts of one value are reduced to one decimal. -/
theorem reduce_congr {negative other : Bool} {a b : Nat} (exponent : Int)
    (same : signed negative a = signed other b) :
    reduce negative a exponent = reduce other b exponent := by
  obtain ⟨magnitude, sign⟩ := eq_of_signed_eq (Nat.cast_nonneg a) (Nat.cast_nonneg b) same
  have whole : a = b := by exact_mod_cast magnitude
  subst whole
  rcases sign with rfl | zero
  · rfl
  · have none : a = 0 := by exact_mod_cast zero
    rw [none, reduce_zero, reduce_zero]

/-- Decimals of one value are one decimal. -/
theorem value_injective : Function.Injective value := by
  intro n m same
  -- both are written over the smaller one of their powers of ten
  have lower : ∃ low : Int, ∃ a b : Nat, n.exponent = low + a ∧ m.exponent = low + b :=
    ⟨min n.exponent m.exponent, (n.exponent - m.exponent).toNat, (m.exponent - n.exponent).toNat,
      by omega, by omega⟩
  obtain ⟨low, a, b, first, second⟩ := lower
  have left : reduce n.negative (n.significand * 10 ^ a) low = n := by
    rw [reduce_mul_pow, ← first, reduce_self]
  have right : reduce m.negative (m.significand * 10 ^ b) low = m := by
    rw [reduce_mul_pow, ← second, reduce_self]
  rw [← left, ← right, value_reduce, value_reduce, signed_mul, signed_mul] at same
  rw [← left, ← right]
  exact reduce_congr low (mul_right_cancel₀ (ne_of_gt (ten_zpow_pos low)) same)

theorem value_inj {n m : Decimal} : n.value = m.value ↔ n = m := value_injective.eq_iff

/-- Only zero denotes zero. -/
theorem value_eq_zero_iff (n : Decimal) : n.value = 0 ↔ n = zero := by
  have none : zero.value = 0 := by
    unfold value zero
    rw [Nat.cast_zero, zero_mul, signed_zero]
  rw [← none, value_inj]

/-- The decimal of an integer denotes it. -/
theorem value_ofInt (value : Int) : (ofInt value).value = value := by
  unfold ofInt
  rw [value_reduce, zpow_zero, mul_one]
  by_cases below : value < 0
  · have magnitude : (value.natAbs : Int) = -value := by omega
    have cast : (value.natAbs : ℚ) = -value := by
      rw [← Int.cast_natCast, magnitude, Int.cast_neg]
    rw [decide_eq_true below, cast]
    exact neg_neg (value : ℚ)
  · have magnitude : (value.natAbs : Int) = value := by omega
    have cast : (value.natAbs : ℚ) = value := by rw [← Int.cast_natCast, magnitude]
    rw [decide_eq_false below, cast]
    rfl

/-- A decimal without a fraction denotes an integer, and no other decimal does. -/
theorem isInteger_iff_value (n : Decimal) :
    n.isInteger = true ↔ ∃ value : Int, n.value = value := by
  rw [isInteger_iff]
  constructor
  · rintro ⟨value, rfl⟩
    exact ⟨value, value_ofInt value⟩
  · rintro ⟨value, same⟩
    exact ⟨value, value_injective (same.trans (value_ofInt value).symm)⟩

/-! ## Numerals -/

namespace Numeral

variable (numeral : Numeral)

/-- The number that the digits before the point make. -/
def wholePart : Nat := Nat.ofDigitChars 10 numeral.whole 0

/-- The number that the digits behind the point make. -/
def fractionPart : Nat := Nat.ofDigitChars 10 (numeral.fraction.getD []) 0

/-- The rational number that a numeral denotes. -/
def value : ℚ :=
  signed numeral.sign.negative
    ((numeral.wholePart + numeral.fractionPart / 10 ^ numeral.places) * 10 ^ numeral.power)

/-- All digits together make the digits before the point, moved, and those behind it. -/
theorem significand_spelling :
    numeral.spelling.significand =
      numeral.wholePart * 10 ^ numeral.places + numeral.fractionPart := by
  show Nat.ofDigitChars 10 (numeral.whole ++ numeral.fraction.getD []) 0 = _
  rw [Nat.ofDigitChars_append, Nat.ofDigitChars_eq_ofDigitChars_zero, Nat.mul_comm]
  rfl

/-- What a numeral spells out has the value of the numeral. -/
theorem value_number : numeral.spelling.number.value = numeral.value := by
  have power : (10 : ℚ) ^ numeral.spelling.lastPlace =
      10 ^ numeral.power / 10 ^ numeral.places := by
    show (10 : ℚ) ^ (numeral.power - numeral.places) = _
    rw [zpow_sub₀ (by norm_num), zpow_natCast]
  have places : (10 : ℚ) ^ numeral.places ≠ 0 := pow_ne_zero _ (by norm_num)
  unfold Spelling.number value
  rw [value_reduce, power, significand_spelling]
  push_cast
  congr 1
  field_simp

end Numeral

end Decimal
end TypedTree
