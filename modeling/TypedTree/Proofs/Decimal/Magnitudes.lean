import TypedTree.Decimal.Word
import TypedTree.Proofs.Decimal.Positional

/-!
# Magnitudes of integers

An integer of at most nineteen digits that is written out is read as the 128-bit word of its
magnitude, and the word has room for the negation. Whether a decimal is a 64-bit word is therefore
a matter of the integer that its parts make.
-/

namespace TypedTree.Decimal

/-! ## The integer that a decimal is -/

/-- The integer that the parts of a decimal make, if it has no fraction. -/
def signedValue (n : Decimal) : Int :=
  let magnitude : Int := (n.significand * Nat.pow 10 n.exponent.toNat : Nat)
  if n.negative then -magnitude else magnitude

/-- Zero has one form. -/
theorem eq_zero_of_isZero {n : Decimal} (none : n.isZero = true) : n = zero := by
  have empty : n.significand = 0 := eq_of_beq none
  have own := reduce_self n
  rwa [empty, reduce_zero, eq_comm] at own

theorem ofInt_natCast (value : Nat) : ofInt value = reduce false value 0 := by
  have kept : ¬ (value : Int) < 0 := by omega
  simp [ofInt, kept]

theorem ofInt_neg_natCast {value : Nat} (positive : 0 < value) :
    ofInt (-value) = reduce true value 0 := by
  simp [ofInt, positive]

/-- A signed magnitude without a fraction is the decimal of an integer. -/
theorem reduce_signed (negative : Bool) (magnitude : Nat) :
    reduce negative magnitude 0 =
      ofInt (if negative then -(magnitude : Int) else (magnitude : Int)) := by
  cases negative with
  | false => exact (ofInt_natCast magnitude).symm
  | true =>
    by_cases zero : magnitude = 0
    · subst zero
      exact (reduce_zero true 0).trans (reduce_zero false 0).symm
    · exact (ofInt_neg_natCast (Nat.pos_of_ne_zero zero)).symm

/-- A decimal without a fraction is the decimal of the integer that its parts make. -/
theorem ofInt_signedValue {n : Decimal} (whole : n.isInteger = true) : ofInt n.signedValue = n :=
  (reduce_signed n.negative _).symm.trans (reduce_eq_self n whole)

/-! ## Reading words -/

/-- Digits are read as the integer that they make. -/
theorem readInteger?_of_digits {text : List Char} (present : text ≠ [])
    (decimal : ∀ c ∈ text, c.isDigit = true) :
    readInteger? text = some (Nat.ofDigitChars 10 text 0 : Nat) :=
  Exponent.read ⟨false, .absent, text, present, decimal⟩

/-- A text is read as the word of the integer that it writes. -/
theorem readInt128?_eq_some_iff {text : List Char} {word : BitVec 128} :
    readInt128? text = some word ↔ readInteger? text = some word.toInt := by
  unfold readInt128?
  constructor
  · intro read
    obtain ⟨value, written, kept⟩ := Option.bind_eq_some_iff.1 read
    obtain ⟨same, made⟩ := Option.ite_none_right_eq_some.1 kept
    rw [written, ← Option.some.inj made, same]
  · intro written
    rw [written, Option.bind_some, BitVec.ofInt_toInt, if_pos rfl]

/-- A number of at most nineteen digits is the integer of its word. -/
theorem toInt_ofInt_natCast {value : Nat} (small : value < 10 ^ 19) :
    (BitVec.ofInt 128 value).toInt = value := by
  apply BitVec.toInt_ofInt_eq_self (by decide) <;> omega

/-! ## Integers written out -/

/-- The digits and zeros of an integer make its magnitude. -/
theorem ofDigitChars_wholeDigits (n : Decimal) :
    Nat.ofDigitChars 10 n.wholeDigits 0 = n.significand * 10 ^ n.exponent.toNat := by
  unfold wholeDigits
  rw [Nat.ofDigitChars_append, ofDigitChars_digits, Nat.ofDigitChars_replicate_zero, Nat.mul_comm]

/--
A decimal that is written out: an integer other than zero with at most nineteen digits, its zeros
among them.
-/
structure WrittenOut (n : Decimal) : Prop where
  present : n.isZero = false
  whole : n.isInteger = true
  short : n.point ≤ 19

namespace WrittenOut

variable {n : Decimal} (out : n.WrittenOut)
include out

theorem positive : 0 < n.significand := by
  have other := out.present
  unfold isZero at other
  exact Nat.pos_of_ne_zero (ne_of_beq_false other)

/-- The magnitude has no more digits than there are before the point. -/
theorem magnitude_lt : n.significand * 10 ^ n.exponent.toNat < 10 ^ 19 := by
  have nonneg : 0 ≤ n.exponent := of_decide_eq_true out.whole
  have short := out.short
  have some : 0 < n.digits.length := List.length_pos_iff.2 (digits_ne_nil out.positive)
  have below : n.significand < 10 ^ n.digits.length := by
    rw [digits_of_pos out.positive] at some ⊢
    exact (Nat.length_toDigits_le_iff (by decide) some).1 le_rfl
  unfold point at short
  calc
    n.significand * 10 ^ n.exponent.toNat < 10 ^ n.digits.length * 10 ^ n.exponent.toNat :=
      Nat.mul_lt_mul_of_pos_right below (Nat.pow_pos (by decide))
    _ = 10 ^ (n.digits.length + n.exponent.toNat) := (Nat.pow_add ..).symm
    _ ≤ 10 ^ 19 := Nat.pow_le_pow_right (by decide) (by omega)

/-- An integer that is written out is read as the word of its magnitude. -/
theorem exists_read : ∃ magnitude : BitVec 128, readInt128? n.wholeDigits = some magnitude ∧
    magnitude.toInt = (n.significand * 10 ^ n.exponent.toNat : Nat) := by
  refine ⟨_, readInt128?_eq_some_iff.2 ?_, toInt_ofInt_natCast out.magnitude_lt⟩
  rw [toInt_ofInt_natCast out.magnitude_lt, ← ofDigitChars_wholeDigits]
  have digits : ∀ c ∈ n.digits, c.isDigit = true := fun c => isDigit_of_mem_digits out.positive
  apply readInteger?_of_digits
  · exact fun none => digits_ne_nil out.positive (List.append_eq_nil_iff.1 none).1
  · intro c held
    rcases List.mem_append.1 held with before | behind
    · exact digits c before
    · obtain rfl := List.eq_of_mem_replicate behind
      rfl

end WrittenOut

/-- No word that is not negative overflows when it is negated. -/
theorem negOverflow_of_nonneg {word : BitVec 128} (nonneg : 0 ≤ word.toInt) :
    word.negOverflow = false := by
  unfold BitVec.negOverflow
  apply beq_false_of_ne
  omega

/-- A word that is not negative is given its sign exactly. -/
theorem toInt_signedWord (negative : Bool) {word : BitVec 128} (nonneg : 0 ≤ word.toInt) :
    (signedWord negative word).toInt = if negative then -word.toInt else word.toInt := by
  cases negative with
  | false => rfl
  | true =>
    apply BitVec.toInt_neg_of_not_negOverflow
    rw [negOverflow_of_nonneg nonneg]
    exact Bool.false_ne_true

/-- The magnitude that was read, given its sign, is the integer that the decimal is. -/
theorem WrittenOut.exists_signedWord {n : Decimal} (out : n.WrittenOut) :
    ∃ magnitude : BitVec 128, readInt128? n.wholeDigits = some magnitude ∧
      magnitude.toInt = (n.significand * 10 ^ n.exponent.toNat : Nat) ∧
      magnitude.negOverflow = false ∧ (signedWord n.negative magnitude).toInt = n.signedValue := by
  obtain ⟨magnitude, read, same⟩ := out.exists_read
  have nonneg : 0 ≤ magnitude.toInt := by omega
  refine ⟨magnitude, read, same, negOverflow_of_nonneg nonneg, ?_⟩
  rw [toInt_signedWord n.negative nonneg, same]
  rfl

/-- An integer that is written out is a word where it is within the range of one. -/
theorem WrittenOut.toInt64?_eq {n : Decimal} (out : n.WrittenOut) :
    n.toInt64? = if fitsInt64 n.signedValue then some n.signedValue else none := by
  obtain ⟨magnitude, read, -, -, value⟩ := out.exists_signedWord
  have present : ¬ n.isZero = true := by
    rw [out.present]
    exact Bool.false_ne_true
  have inside : ¬ (!n.isInteger || decide (19 < n.point)) = true := by
    rw [out.whole, decide_eq_false (Int.not_lt.2 out.short)]
    exact Bool.false_ne_true
  unfold toInt64?
  rw [if_neg present, if_neg inside, read]
  simp only [Option.bind_eq_bind, Option.bind_some, value]

/-- A decimal is a word when it has at most nineteen integer digits and makes one. -/
theorem toInt64?_eq_some_iff_signedValue {n : Decimal} {value : Int} :
    n.toInt64? = some value ↔
      (n.isInteger = true ∧ n.point ≤ 19) ∧ fitsInt64 value = true ∧ n.signedValue = value := by
  by_cases none : n.isZero = true
  · -- zero has no digits to be read, and is answered before anything is written
    obtain rfl := eq_zero_of_isZero none
    have whole : zero.isInteger = true ∧ zero.point ≤ 19 := ⟨rfl, by decide⟩
    have own : zero.signedValue = 0 := rfl
    have fits : fitsInt64 0 = true := rfl
    rw [own]
    constructor
    · rintro ⟨⟩
      exact ⟨whole, fits, rfl⟩
    · rintro ⟨-, -, rfl⟩
      rfl
  · by_cases inside : n.isInteger = true ∧ n.point ≤ 19
    · have out : n.WrittenOut := ⟨Bool.eq_false_iff.2 none, inside.1, inside.2⟩
      rw [out.toInt64?_eq, Option.ite_none_right_eq_some, Option.some.injEq]
      constructor
      · rintro ⟨fits, rfl⟩
        exact ⟨inside, fits, rfl⟩
      · rintro ⟨-, fits, rfl⟩
        exact ⟨fits, rfl⟩
    · have refused : (!n.isInteger || decide (19 < n.point)) = true := by
        rcases not_and_or.1 inside with broken | long
        · rw [Bool.eq_false_iff.2 broken]
          rfl
        · rw [decide_eq_true (Int.not_le.1 long), Bool.or_true]
      unfold toInt64?
      rw [if_neg none, if_pos refused]
      exact ⟨nofun, fun ⟨guard, _⟩ => absurd guard inside⟩

end TypedTree.Decimal
