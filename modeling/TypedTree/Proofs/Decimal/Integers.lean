import TypedTree.Proofs.Decimal.Value

/-!
# Integers cross exactly

A decimal is converted to a signed 64-bit word exactly when it is the decimal of that word, and it
is refused exactly when it is no integer or out of range, whatever its digits and its exponent are.
A number of more than nineteen integer digits is out of range, and any other integer is read as a
128-bit word that has room for its negation.
-/

namespace TypedTree.Decimal

/-! ## Integers within a word -/

/-- The integers within a word are those between the least and the greatest one. -/
theorem fitsInt64_iff_between {value : Int} :
    fitsInt64 value = true ↔ Int64.minValue.toInt ≤ value ∧ value ≤ Int64.maxValue.toInt := by
  rw [fitsInt64_iff, Int64.toInt_minValue, Int64.toInt_maxValue]
  unfold int64Bound
  omega

/-- The integer of a word is within a word. -/
theorem fitsInt64_toInt (word : Int64) : fitsInt64 word.toInt = true := by
  have low := word.le_toInt
  have high := word.toInt_lt
  apply fitsInt64_iff.2
  unfold int64Bound
  omega

/-- A decimal is the word whose decimal it is. -/
theorem toInt64?_eq_some_toInt {n : Decimal} {word : Int64} :
    n.toInt64? = some word.toInt ↔ n = ofInt word.toInt := by
  rw [toInt64?_eq_some, and_iff_right (fitsInt64_toInt word)]
  exact eq_comm

/-- The decimal of an integer is refused where the integer is out of range. -/
theorem toInt64?_ofInt_eq_none {value : Int} :
    (ofInt value).toInt64? = none ↔ ¬ fitsInt64 value = true := by
  rw [Option.eq_none_iff_forall_ne_some]
  constructor
  · intro refused fits
    exact refused value (toInt64?_ofInt fits)
  · intro outside other found
    obtain ⟨fits, same⟩ := toInt64?_eq_some.1 found
    exact outside (ofInt_injective same ▸ fits)

/-- A decimal is refused when it denotes no integer or one that is out of range. -/
theorem toInt64?_eq_none_iff (n : Decimal) :
    n.toInt64? = none ↔ (¬ ∃ value : Int, n.value = value) ∨
      n.value < Int64.minValue.toInt ∨ Int64.maxValue.toInt < n.value := by
  by_cases whole : ∃ value : Int, n.value = value
  · obtain ⟨value, same⟩ := whole
    obtain rfl : n = ofInt value := value_injective (same.trans (value_ofInt value).symm)
    have closed : ¬ ¬ ∃ other : Int, ((value : Int) : ℚ) = other := fun apart => apart ⟨value, rfl⟩
    rw [toInt64?_ofInt_eq_none, fitsInt64_iff_between, value_ofInt, or_iff_right closed,
      Int.cast_lt, Int.cast_lt]
    omega
  · refine iff_of_true (Option.eq_none_iff_forall_ne_some.2 fun value found => ?_) (.inl whole)
    obtain ⟨-, rfl⟩ := toInt64?_eq_some.1 found
    exact whole ⟨value, value_ofInt value⟩

/-! ## Integers written out -/

/-- A decimal without a fraction denotes the integer that its parts make. -/
theorem value_of_isInteger {n : Decimal} (whole : n.isInteger = true) :
    n.value = n.signedValue := by
  conv_lhs => rw [← ofInt_signedValue whole]
  exact value_ofInt n.signedValue

/-- The size of a decimal without a fraction is its magnitude. -/
theorem abs_value_of_isInteger {n : Decimal} (whole : n.isInteger = true) :
    |n.value| = (n.significand * 10 ^ n.exponent.toNat : Nat) := by
  have parts : n.value = signed n.negative (n.significand * 10 ^ n.exponent.toNat : Nat) :=
    (value_of_isInteger whole).trans (cast_signed n.negative _)
  rw [parts]
  exact abs_signed n.negative (Nat.cast_nonneg _)

/--
Integers cross to words exactly. A decimal is converted to a word exactly when it is the decimal of
that word, so only a decimal that is no integer or out of range is refused. Where the integer is
written out, it is read, the word that is read is its size, and giving that word its sign does not
overflow.
-/
theorem integers_cross_exactly (n : Decimal) :
    (∀ word : Int64, n.toInt64? = some word.toInt ↔ n = ofInt word.toInt) ∧
    (n.toInt64? = none ↔ (¬ ∃ value : Int, n.value = value) ∨
      n.value < Int64.minValue.toInt ∨ Int64.maxValue.toInt < n.value) ∧
    (n.WrittenOut → ∃ magnitude : BitVec 128, readInt128? n.wholeDigits = some magnitude ∧
      magnitude.toInt = |n.value| ∧ magnitude.negOverflow = false ∧
      (signedWord n.negative magnitude).toInt = n.value) := by
  refine ⟨fun word => toInt64?_eq_some_toInt, toInt64?_eq_none_iff n, fun out => ?_⟩
  obtain ⟨magnitude, read, size, room, value⟩ := out.exists_signedWord
  refine ⟨magnitude, read, ?_, room, ?_⟩
  · rw [size, abs_value_of_isInteger out.whole, Int.cast_natCast]
  · rw [value, value_of_isInteger out.whole]

/-- The least word is converted; the integer below it is written out, too, and then refused. -/
theorem least_word_crosses :
    (ofInt (-0x8000000000000000)).toInt64? = some (-0x8000000000000000) ∧
      (ofInt (-0x8000000000000001)).WrittenOut ∧
      (∃ magnitude : BitVec 128,
        readInt128? (ofInt (-0x8000000000000001)).wholeDigits = some magnitude ∧
        magnitude.toInt = |(ofInt (-0x8000000000000001)).value| ∧ magnitude.negOverflow = false ∧
        (signedWord (ofInt (-0x8000000000000001)).negative magnitude).toInt =
          (ofInt (-0x8000000000000001)).value) ∧
      (ofInt (-0x8000000000000001)).toInt64? = none := by
  have out : (ofInt (-0x8000000000000001)).WrittenOut :=
    ⟨by decide +kernel, by decide +kernel, by decide +kernel⟩
  obtain ⟨converted, -, -⟩ := integers_cross_exactly (ofInt (-0x8000000000000000))
  obtain ⟨-, refused, room⟩ := integers_cross_exactly (ofInt (-0x8000000000000001))
  refine ⟨(converted Int64.minValue).2 rfl, out, room out, refused.2 (.inr (.inl ?_))⟩
  rw [value_ofInt, Int.cast_lt, Int64.toInt_minValue]
  decide

end TypedTree.Decimal
