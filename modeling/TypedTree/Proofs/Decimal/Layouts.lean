import TypedTree.Decimal.Binary64
import TypedTree.Proofs.Decimal.Positional

/-!
# The numerals that decimals are written as

Whatever its layout, the text of a decimal is a numeral that spells it out: the zeros that a plain
integer fills in come off the exponent again, and the exponent of the scientific form is that of the
first digit. The text is therefore read as the decimal as long as the exponent that it shows stays
within a word, and the double that it is read as is the one nearest to the decimal.
-/

namespace TypedTree.Decimal

/-! ## Exponents -/

/-- The exponent that is written for an integer. -/
def Exponent.ofInt (value : Int) : Exponent where
  capital := false
  sign := if value < 0 then .minus else .absent
  digits := Nat.toDigits 10 value.natAbs
  present := Nat.toDigits_ne_nil
  decimal := fun _ => Nat.isDigit_of_mem_toDigits (by decide) (by decide)

namespace Exponent

theorem chars_ofInt (value : Int) : (ofInt value).chars = 'e' :: integerChars value := by
  unfold integerChars
  by_cases below : value < 0
  · simp [chars, letter, ofInt, Sign.chars, below]
  · simp [chars, letter, ofInt, Sign.chars, below]

theorem value_ofInt (value : Int) : (ofInt value).value = value := by
  have magnitude : Nat.ofDigitChars 10 (ofInt value).digits 0 = value.natAbs :=
    Nat.ofDigitChars_ten_toDigits
  unfold Exponent.value Sign.applied
  rw [magnitude]
  by_cases below : value < 0
  · simp only [ofInt, Sign.negative, below, ↓reduceIte]
    omega
  · simp only [ofInt, Sign.negative, below, Bool.false_eq_true, ↓reduceIte]
    omega

end Exponent

/--
A positional text with a sign and an exponent that is written behind it is a numeral that spells out
these parts.
-/
theorem Positional.exists_spelling {text : List Char} {significand places : Nat}
    (positional : Positional text significand places) (negative : Bool) (power : Option Int) :
    ∃ numeral : Numeral,
      numeral.chars = (if negative then ['-'] else []) ++
        (text ++ (power.map fun value => 'e' :: integerChars value).getD []) ∧
      numeral.spelling.negative = negative ∧ numeral.spelling.exponent = power.getD 0 ∧
      numeral.spelling.significand = significand ∧
      numeral.spelling.lastPlace = power.getD 0 - places := by
  obtain ⟨numeral, written, sign, exponent, digits, fraction⟩ := positional.exists_numeral
    (if negative then .minus else .absent) (power.map Exponent.ofInt)
  have shown : numeral.spelling.exponent = power.getD 0 := by
    show (numeral.exponent.map Exponent.value).getD 0 = power.getD 0
    rw [exponent]
    cases power with
    | none => rfl
    | some value => exact Exponent.value_ofInt value
  refine ⟨numeral, ?_, ?_, shown, digits, ?_⟩
  · rw [written]
    congr 1
    · cases negative <;> rfl
    · cases power with
      | none => rfl
      | some value => exact congrArg (text ++ ·) (Exponent.chars_ofInt value)
  · show numeral.sign.negative = negative
    rw [sign]
    cases negative <;> rfl
  · rw [Spelling.lastPlace, shown, ← fraction]
    rfl

/-! ## Layouts -/

/-- A decimal is written positionally: few enough zeros have to be filled in on either side. -/
def Plain (n : Decimal) : Prop := n.exponent ≤ paddingLimit ∧ -n.point ≤ paddingLimit

instance (n : Decimal) : Decidable n.Plain := inferInstanceAs (Decidable (_ ∧ _))

theorem unsignedChars_eq (n : Decimal) :
    n.unsignedChars =
      if n.Plain then n.positionalChars else scientificChars integerChars n.digits n.point :=
  rfl

/-- The number of zeros that are written behind the digits of a decimal. -/
def padding (n : Decimal) : Nat := if n.Plain then n.exponent.toNat else 0

/-- The exponent that the text of a decimal shows, if it shows one. -/
def shownPower? (n : Decimal) : Option Int := if n.Plain then none else some (n.point - 1)

/-- The exponent that the text of a decimal shows; zero where it shows none. -/
def shownPower (n : Decimal) : Int := n.shownPower?.getD 0

theorem shownPower_of_plain {n : Decimal} (plain : n.Plain) : n.shownPower = 0 := by
  rw [shownPower, shownPower?, if_pos plain]
  rfl

theorem shownPower_of_not_plain {n : Decimal} (scientific : ¬ n.Plain) :
    n.shownPower = n.point - 1 := by
  rw [shownPower, shownPower?, if_neg scientific]
  rfl

section Scientific

variable {n : Decimal} (positive : 0 < n.significand)
include positive

/-- In scientific form all digits but the first stand behind the point. -/
theorem exists_mantissa (exponentChars : Int → List Char) (point : Int) :
    ∃ mantissa, Positional mantissa n.significand (n.digits.length - 1) ∧
      scientificChars exponentChars n.digits point =
        mantissa ++ 'e' :: exponentChars (point - 1) := by
  have made := n.ofDigitChars_digits
  have each : ∀ c ∈ n.digits, c.isDigit = true := fun c => isDigit_of_mem_digits positive
  obtain ⟨lead, rest, digits⟩ := List.exists_cons_of_ne_nil (digits_ne_nil positive)
  rw [digits] at made each ⊢
  rw [← made]
  cases rest with
  | nil => exact ⟨[lead], .whole (List.cons_ne_nil _ _) each, rfl⟩
  | cons next rest =>
    obtain ⟨first, others⟩ := List.forall_mem_cons.1 each
    refine ⟨lead :: '.' :: next :: rest, ?_, rfl⟩
    exact .pointed (List.cons_ne_nil _ []) (List.forall_mem_singleton.2 first) others

/-- The text of a decimal other than zero has the layout that its zeros allow. -/
theorem exists_positional :
    ∃ mantissa places, Positional mantissa (n.significand * 10 ^ n.padding) places ∧
      n.unsignedChars = mantissa ++
        (n.shownPower?.map fun power => 'e' :: integerChars power).getD [] ∧
      n.shownPower - places = n.exponent - n.padding := by
  by_cases plain : n.Plain
  · refine ⟨n.positionalChars, (-n.exponent).toNat, ?_, ?_, ?_⟩
    · rw [padding, if_pos plain]
      exact positional_positionalChars positive
    · rw [unsignedChars_eq, if_pos plain, shownPower?, if_pos plain]
      exact (List.append_nil _).symm
    · rw [shownPower_of_plain plain, padding, if_pos plain]
      omega
  · obtain ⟨mantissa, positional, written⟩ := exists_mantissa positive integerChars n.point
    have some : 0 < n.digits.length := List.length_pos_of_ne_nil (digits_ne_nil positive)
    refine ⟨mantissa, n.digits.length - 1, ?_, ?_, ?_⟩
    · rw [padding, if_neg plain, Nat.pow_zero, Nat.mul_one]
      exact positional
    · rw [unsignedChars_eq, if_neg plain, written, shownPower?, if_neg plain]
      rfl
    · rw [shownPower_of_not_plain plain, padding, if_neg plain, point]
      omega

end Scientific

/-- The text of a decimal is a numeral of its digits, its zeros filled in and its exponent shown. -/
theorem exists_numeral_chars (n : Decimal) :
    ∃ numeral : Numeral, numeral.chars = n.chars ∧ numeral.spelling.negative = n.negative ∧
      numeral.spelling.exponent = n.shownPower ∧
      numeral.spelling.significand = n.significand * 10 ^ n.padding ∧
      numeral.spelling.lastPlace = n.exponent - n.padding := by
  by_cases zero : n.significand = 0
  · obtain ⟨negative, significand, exponent, reduced⟩ := n
    obtain rfl : significand = 0 := zero
    obtain ⟨rfl, -, rfl⟩ := reduced rfl
    have digit : ∀ c ∈ ['0'], c.isDigit = true := List.forall_mem_singleton.2 rfl
    exact ⟨⟨.absent, ['0'], none, none, List.cons_ne_nil _ _, digit⟩, rfl, rfl, rfl, rfl, rfl⟩
  · obtain ⟨mantissa, places, positional, written, last⟩ :=
      exists_positional (Nat.pos_of_ne_zero zero)
    obtain ⟨numeral, spelled, negative, power, significand, place⟩ :=
      positional.exists_spelling n.negative n.shownPower?
    refine ⟨numeral, ?_, negative, power, significand, place.trans last⟩
    rw [spelled, ← written, chars, isZero, beq_false_of_ne zero]
    cases n.negative <;> rfl

/-- What the text of a decimal spells out is the decimal. -/
theorem exists_numeral_of_text (n : Decimal) :
    ∃ numeral : Numeral, numeral.chars = n.chars ∧ numeral.spelling.exponent = n.shownPower ∧
      n.exponent - n.padding = numeral.spelling.lastPlace ∧ numeral.spelling.number = n := by
  obtain ⟨numeral, written, negative, power, significand, last⟩ := exists_numeral_chars n
  refine ⟨numeral, written, power, last.symm, ?_⟩
  unfold Spelling.number
  rw [negative, significand, last, reduce_mul_pow, Int.sub_add_cancel, reduce_self]

/-- The text of a decimal is read as the double nearest to the decimal. -/
theorem readChars?_chars (n : Decimal) :
    Binary64.readChars? n.chars = Binary64.nearest? n.negative n.significand n.exponent := by
  obtain ⟨numeral, written, negative, -, significand, last⟩ := exists_numeral_chars n
  unfold Binary64.readChars?
  rw [← written, numeral.readSpelling?_chars]
  show Binary64.nearest? _ _ _ = _
  rw [negative, significand, last, Binary64.nearest?_shift, Int.sub_add_cancel]

end TypedTree.Decimal
