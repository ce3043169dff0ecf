import Mathlib.Data.Nat.Digits.Defs
import TypedTree.Proofs.Decimal.Exactness

/-!
# Integers within a word

An integer of a signed 64-bit word comes back from its decimal, however many zeros were folded into
the exponent: the number of its digits stays below the limit at which a decimal is refused unread.
-/

namespace TypedTree.Decimal

/-- The value of a number of several digits and appended zeros bounds the number of both. -/
theorem length_digits_le {significand zeros limit : Nat} (positive : 0 < significand)
    (small : significand * 10 ^ zeros < 10 ^ limit) :
    (Nat.toDigits 10 significand).length + zeros ≤ limit := by
  have fewer : zeros < limit := by
    apply (Nat.pow_lt_pow_iff_right (by decide : 1 < 10)).1
    exact Nat.lt_of_le_of_lt (Nat.le_mul_of_pos_left _ positive) small
  have split : 10 ^ limit = 10 ^ (limit - zeros) * 10 ^ zeros := by
    rw [← Nat.pow_add, Nat.sub_add_cancel (Nat.le_of_lt fewer)]
  have below : significand < 10 ^ (limit - zeros) := by
    rw [split] at small
    exact Nat.lt_of_mul_lt_mul_right small
  have digits := (Nat.length_toDigits_le_iff (by decide : 1 < 10) (by omega)).2 below
  omega

/-- A number up to a power of ten is reduced to at most as many digits as that power says. -/
theorem length_digits_reduce_le (negative : Bool) {significand count : Nat} (exponent : Int)
    (present : 0 < significand) (some : 0 < count) (small : significand ≤ 10 ^ count) :
    (reduce negative significand exponent).digits.length ≤ count := by
  obtain ⟨-, kept, -⟩ := reduce_parts negative exponent present
  have positive := dropZeros_pos present
  rw [digits_of_pos (kept ▸ positive), kept]
  rcases Nat.lt_or_eq_of_le small with below | same
  · rw [← dropZeros_value significand] at below
    have short := length_digits_le positive below
    omega
  · have one : dropZeros significand = (1, count) := by
      rw [same, ← Nat.one_mul (10 ^ count)]
      exact dropZeros_mul_pow (by decide) count
    have digits : Nat.toDigits 10 1 = ['1'] := rfl
    rw [one, digits]
    exact some

/-- The parts of an integer other than zero as a decimal. -/
theorem ofInt_parts {value : Int} (positive : 0 < value.natAbs) :
    (ofInt value).negative = decide (value < 0) ∧
      (ofInt value).significand = (dropZeros value.natAbs).1 ∧
      (ofInt value).exponent = (dropZeros value.natAbs).2 := by
  have parts := reduce_parts (value < 0) 0 positive
  rw [Int.zero_add] at parts
  exact parts

/-- The decimal of an integer has no fraction. -/
theorem isInteger_ofInt (value : Int) : (ofInt value).isInteger = true := by
  by_cases zero : value = 0
  · subst zero
    simp [ofInt, reduce, dropZeros, Decimal.zero, isInteger]
  · have exponent := (ofInt_parts (Int.natAbs_pos.2 zero)).2.2
    rw [isInteger, exponent, decide_eq_true_eq]
    omega

/-- An integer is what the parts of its decimal make. -/
theorem signedValue_ofInt (value : Int) : (ofInt value).signedValue = value := by
  by_cases zero : value = 0
  · subst zero
    simp [ofInt, reduce, dropZeros, Decimal.zero, signedValue]
  · obtain ⟨sign, significand, exponent⟩ := ofInt_parts (Int.natAbs_pos.2 zero)
    have power : (ofInt value).exponent.toNat = (dropZeros value.natAbs).2 := by
      rw [exponent]
      omega
    have magnitude : (ofInt value).significand * Nat.pow 10 (ofInt value).exponent.toNat =
        value.natAbs := by
      rw [significand, power]
      exact dropZeros_value value.natAbs
    rw [signedValue, magnitude, sign]
    by_cases below : value < 0
    · simp only [below, decide_true, ↓reduceIte]
      omega
    · simp only [below, decide_false, Bool.false_eq_true, ↓reduceIte]
      omega

/-- Different integers are different decimals. -/
theorem ofInt_injective : Function.Injective ofInt := by
  intro a b same
  rw [← signedValue_ofInt a, same, signedValue_ofInt]

/-- An integer within a word is written out with at most nineteen digits. -/
theorem point_ofInt_le {value : Int} (fits : fitsInt64 value = true) :
    (ofInt value).point ≤ 19 := by
  by_cases zero : value = 0
  · subst zero
    simp [ofInt, reduce, dropZeros, Decimal.zero, point, digits]
  · have positive : 0 < value.natAbs := Int.natAbs_pos.2 zero
    obtain ⟨-, significand, exponent⟩ := ofInt_parts positive
    have kept := dropZeros_pos positive
    have bounds := fitsInt64_iff.1 fits
    have small : value.natAbs < 10 ^ 19 := by
      unfold int64Bound at bounds
      omega
    have short := length_digits_le kept ((dropZeros_value value.natAbs).symm ▸ small)
    rw [point, digits_of_pos (significand ▸ kept), significand, exponent]
    omega

/-- An integer within a word comes back from its decimal. -/
theorem toInt64?_ofInt {value : Int} (fits : fitsInt64 value = true) :
    (ofInt value).toInt64? = some value :=
  toInt64?_eq_some_iff_signedValue.2
    ⟨⟨isInteger_ofInt value, point_ofInt_le fits⟩, fits, signedValue_ofInt value⟩

/-- A decimal is a word exactly when it is the decimal of an integer within a word. -/
theorem toInt64?_eq_some {n : Decimal} {value : Int} :
    n.toInt64? = some value ↔ fitsInt64 value = true ∧ ofInt value = n := by
  constructor
  · intro found
    obtain ⟨-, fits, -⟩ := toInt64?_eq_some_iff_signedValue.1 found
    exact ⟨fits, ofInt_of_toInt64? found⟩
  · rintro ⟨fits, rfl⟩
    exact toInt64?_ofInt fits

end TypedTree.Decimal
