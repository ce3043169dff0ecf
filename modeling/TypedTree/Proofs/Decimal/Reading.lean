import Mathlib.Data.List.DropRight
import TypedTree.Proofs.Decimal.Value

/-!
# What the reader accepts

A text is read exactly when it is a numeral whose exponents stay within a word: the one written, the
one of the last digit, and, unless all digits are zero, the one of the last digit that is no zero.
It is read as the decimal of the number that the numeral denotes, and every other text is given back
as a whole with the error.
-/

namespace TypedTree.Decimal

/-! ## Trailing zeros -/

/-- The number of zeros at the end of some digits. -/
def trailingZeros (digits : List Char) : Nat := (digits.rtakeWhile (· == '0')).length

/-- The digits without the zeros at their end. -/
def withoutZeros (digits : List Char) : List Char := digits.rdropWhile (· == '0')

/-- Digits are those before their trailing zeros, and the zeros. -/
theorem withoutZeros_append (digits : List Char) :
    withoutZeros digits ++ List.replicate (trailingZeros digits) '0' = digits := by
  have zeros : digits.rtakeWhile (· == '0') = List.replicate (trailingZeros digits) '0' := by
    apply List.eq_replicate_of_mem
    intro c held
    exact eq_of_beq (List.mem_rtakeWhile_imp (p := (· == '0')) held)
  rw [← zeros]
  exact List.rdropWhile_append_rtakeWhile

/-- Trailing zeros are a power of ten in the number that digits make. -/
theorem ofDigitChars_withoutZeros (digits : List Char) :
    Nat.ofDigitChars 10 digits 0 =
      Nat.ofDigitChars 10 (withoutZeros digits) 0 * 10 ^ trailingZeros digits := by
  conv_lhs => rw [← withoutZeros_append digits]
  rw [Nat.ofDigitChars_append, Nat.ofDigitChars_replicate_zero, Nat.mul_comm]

theorem toNat_of_isDigit {c : Char} (digit : c.isDigit = true) : 48 ≤ c.toNat ∧ c.toNat ≤ 57 := by
  simpa [Char.isDigit, UInt32.le_iff_toNat_le] using digit

/-- A digit counts less than ten, and only the digit zero counts nothing. -/
theorem digit_value {c : Char} (digit : c.isDigit = true) :
    c.toNat - '0'.toNat < 10 ∧ (c ≠ '0' → c.toNat - '0'.toNat ≠ 0) := by
  have bounds := toNat_of_isDigit digit
  have zero : '0'.toNat = 48 := rfl
  refine ⟨by omega, fun other none => other ?_⟩
  apply Char.toNat_inj.1
  omega

/-- Digits that do not end in a zero make a number that does not end in one. -/
theorem ofDigitChars_mod_ten {digits : List Char} (decimal : ∀ c ∈ digits, c.isDigit = true)
    (present : digits ≠ []) (last : digits.getLast present ≠ '0') :
    Nat.ofDigitChars 10 digits 0 % 10 ≠ 0 := by
  have split : digits.dropLast ++ [digits.getLast present] = digits :=
    List.dropLast_append_getLast present
  obtain ⟨small, positive⟩ := digit_value (decimal _ (List.getLast_mem present))
  have counted := positive last
  rw [← split, Nat.ofDigitChars_append, Nat.ofDigitChars_cons, Nat.ofDigitChars_nil]
  omega

section Zeros

variable {digits : List Char} (decimal : ∀ c ∈ digits, c.isDigit = true)
include decimal

/-- The digits before the trailing zeros, if there are any, make a number that ends in no zero. -/
theorem ofDigitChars_withoutZeros_mod_ten (some : withoutZeros digits ≠ []) :
    Nat.ofDigitChars 10 (withoutZeros digits) 0 % 10 ≠ 0 := by
  have front : ∀ c ∈ withoutZeros digits, c.isDigit = true := fun c held =>
    decimal c ((List.rdropWhile_prefix _ _).subset held)
  apply ofDigitChars_mod_ten front some
  have last := List.rdropWhile_last_not (· == '0') digits some
  rwa [beq_iff_eq] at last

/-- Digits make zero when all of them are zeros. -/
theorem ofDigitChars_eq_zero_iff :
    Nat.ofDigitChars 10 digits 0 = 0 ↔ ∀ c ∈ digits, c = '0' := by
  have none : withoutZeros digits = [] ↔ ∀ c ∈ digits, c = '0' := by
    simp [withoutZeros, List.rdropWhile_eq_nil_iff]
  rw [← none, ofDigitChars_withoutZeros]
  constructor
  · intro zero
    by_contra some
    have nonzero := ofDigitChars_withoutZeros_mod_ten decimal some
    rcases Nat.mul_eq_zero.1 zero with front | power
    · rw [front] at nonzero
      exact nonzero rfl
    · exact absurd power (Nat.ne_of_gt (Nat.pow_pos (by decide)))
  · intro empty
    rw [empty, Nat.ofDigitChars_nil, Nat.zero_mul]

/-- The zeros that reduction drops are the trailing ones. -/
theorem dropZeros_ofDigitChars (some : Nat.ofDigitChars 10 digits 0 ≠ 0) :
    (dropZeros (Nat.ofDigitChars 10 digits 0)).2 = trailingZeros digits := by
  have present : withoutZeros digits ≠ [] := by
    intro none
    apply some
    rw [ofDigitChars_withoutZeros, none, Nat.ofDigitChars_nil, Nat.zero_mul]
  rw [ofDigitChars_withoutZeros,
    dropZeros_mul_pow (ofDigitChars_withoutZeros_mod_ten decimal present)]

end Zeros

/-! ## The digits that are kept -/

/-- The digits without the zeros before them and behind them. -/
def trimmed (digits : List Char) : List Char := withoutZeros (digits.dropWhile (· == '0'))

/-- A digit is written as what it counts. -/
theorem digitChar_value {c : Char} (digit : c.isDigit = true) :
    (c.toNat - '0'.toNat).digitChar = c := by
  have bounds := toNat_of_isDigit digit
  obtain ⟨small, -⟩ := digit_value digit
  have zero : '0'.toNat = 48 := rfl
  apply Char.toNat_inj.1
  rw [Nat.toNat_digitChar_of_lt_ten small]
  omega

/-- Digits that do not begin with a zero are those of the number that they make. -/
theorem toDigits_ofDigitChars {digits : List Char} (decimal : ∀ c ∈ digits, c.isDigit = true)
    (present : digits ≠ []) (leading : digits.head? ≠ some '0') :
    Nat.toDigits 10 (Nat.ofDigitChars 10 digits 0) = digits := by
  induction digits using List.reverseRecOn with
  | nil => exact absurd rfl present
  | append_singleton front c ih =>
    have digit : c.isDigit = true := decimal c (List.mem_append_right _ List.mem_cons_self)
    obtain ⟨small, -⟩ := digit_value digit
    rw [Nat.ofDigitChars_append, Nat.ofDigitChars_cons, Nat.ofDigitChars_nil]
    by_cases single : front = []
    · rw [single, Nat.ofDigitChars_nil, Nat.mul_zero, Nat.zero_add, Nat.toDigits_of_lt_base small,
        digitChar_value digit]
      rfl
    · rw [List.head?_append_of_ne_nil _ single] at leading
      have own := ih (fun d held => decimal d (List.mem_append_left _ held)) single leading
      have positive : 0 < Nat.ofDigitChars 10 front 0 := by
        apply Nat.pos_of_ne_zero
        intro zero
        rw [zero] at own
        rw [← own] at leading
        exact leading rfl
      rw [← Nat.toDigits_append_toDigits (by decide) positive small, own,
        Nat.toDigits_of_lt_base small, digitChar_value digit]

/-- Leading zeros count nothing. -/
theorem ofDigitChars_dropWhile {digits : List Char} (decimal : ∀ c ∈ digits, c.isDigit = true) :
    Nat.ofDigitChars 10 (digits.dropWhile (· == '0')) 0 = Nat.ofDigitChars 10 digits 0 := by
  have zeros : Nat.ofDigitChars 10 (digits.takeWhile (· == '0')) 0 = 0 := by
    apply (ofDigitChars_eq_zero_iff fun c held =>
      decimal c ((List.takeWhile_prefix _).subset held)).2
    intro c held
    exact eq_of_beq (List.mem_takeWhile_imp (p := (· == '0')) held)
  conv_rhs => rw [← List.takeWhile_append_dropWhile (p := (· == '0')) (l := digits)]
  rw [Nat.ofDigitChars_append, zeros]

/-- Trimmed digits do not begin with a zero. -/
theorem head?_trimmed (digits : List Char) : (trimmed digits).head? ≠ some '0' := by
  intro zero
  have present : trimmed digits ≠ [] := by
    intro none
    rw [none] at zero
    cases zero
  have kept : (digits.dropWhile (· == '0')).head? = some '0' := by
    rw [← withoutZeros_append (digits.dropWhile (· == '0'))]
    exact (List.head?_append_of_ne_nil _ present).trans zero
  have other := List.head?_dropWhile_not (· == '0') digits
  rw [kept] at other
  cases other

/--
Reduction keeps exactly the digits between the leading and the trailing zeros, and counts the
trailing ones in the exponent.
-/
theorem reduce_ofDigitChars {digits : List Char} (decimal : ∀ c ∈ digits, c.isDigit = true)
    (some : Nat.ofDigitChars 10 digits 0 ≠ 0) (negative : Bool) (exponent : Int) :
    (reduce negative (Nat.ofDigitChars 10 digits 0) exponent).digits = trimmed digits ∧
      (reduce negative (Nat.ofDigitChars 10 digits 0) exponent).exponent =
        exponent + trailingZeros digits := by
  obtain ⟨-, kept, moved⟩ := reduce_parts negative exponent (Nat.pos_of_ne_zero some)
  have positive := dropZeros_pos (Nat.pos_of_ne_zero some)
  rw [dropZeros_ofDigitChars decimal some] at moved
  refine ⟨?_, moved⟩
  rw [digits_of_pos (kept ▸ positive), kept]
  have inner : ∀ c ∈ digits.dropWhile (· == '0'), c.isDigit = true := fun c held =>
    decimal c ((List.dropWhile_suffix _).subset held)
  have counted := ofDigitChars_withoutZeros (digits.dropWhile (· == '0'))
  rw [ofDigitChars_dropWhile decimal] at counted
  have present : trimmed digits ≠ [] := by
    intro none
    apply some
    rw [counted]
    exact (congrArg (Nat.ofDigitChars 10 · 0 * _) none).trans (Nat.zero_mul _)
  rw [counted, dropZeros_mul_pow (ofDigitChars_withoutZeros_mod_ten inner present)]
  exact toDigits_ofDigitChars (fun c held => inner c ((List.rdropWhile_prefix _ _).subset held))
    present (head?_trimmed digits)

/-! ## The range of numerals -/

/--
The exponents of a numeral stay within a word: as written, with the fraction digits taken off, and
with the trailing zeros added again unless all digits are zero.
-/
structure Numeral.InRange (numeral : Numeral) : Prop where
  written : -int64Bound ≤ numeral.power ∧ numeral.power < int64Bound
  shifted : -int64Bound ≤ numeral.power - numeral.places
  folded : (∀ c ∈ numeral.digits, c = '0') ∨
    numeral.power - numeral.places + trailingZeros numeral.digits < int64Bound

/-- The exponent of the decimal that a numeral spells out is within a word if the folded one is. -/
theorem Numeral.exponent_number_lt (numeral : Numeral) :
    numeral.spelling.number.exponent < int64Bound ↔
      (∀ c ∈ numeral.digits, c = '0') ∨
        numeral.power - numeral.places + trailingZeros numeral.digits < int64Bound := by
  have decimal : ∀ c ∈ numeral.digits, c.isDigit = true := fun c => numeral.isDigit_of_mem_digits
  rw [← ofDigitChars_eq_zero_iff decimal]
  show (reduce numeral.sign.negative (Nat.ofDigitChars 10 numeral.digits 0)
    (numeral.power - numeral.places)).exponent < int64Bound ↔ _
  by_cases zero : Nat.ofDigitChars 10 numeral.digits 0 = 0
  · have bound : Decimal.zero.exponent < int64Bound := by decide
    rw [zero, reduce_zero]
    exact ⟨fun _ => .inl rfl, fun _ => bound⟩
  · obtain ⟨-, -, exponent⟩ := reduce_parts numeral.sign.negative
      (numeral.power - numeral.places) (Nat.pos_of_ne_zero zero)
    rw [exponent, dropZeros_ofDigitChars decimal zero]
    exact ⟨.inr, fun either => either.resolve_left zero⟩

/-- The limits of the reader are those of the exponents as they are written. -/
theorem Numeral.fits_iff (numeral : Numeral) : numeral.spelling.Fits ↔ numeral.InRange := by
  have folded := numeral.exponent_number_lt
  constructor
  · rintro ⟨written, shifted, small⟩
    exact ⟨fitsInt64_iff.1 written, shifted, folded.1 small⟩
  · rintro ⟨written, shifted, small⟩
    exact ⟨fitsInt64_iff.2 written, shifted, folded.2 small⟩

/-! ## The reader -/

theorem read_eq_ok_iff {text : String} {n : Decimal} : read text = .ok n ↔ read? text = some n := by
  unfold read
  cases read? text <;> simp

theorem read_eq_error_iff {text : String} {error : ReadError} :
    read text = .error error ↔ read? text = none ∧ error = ⟨text⟩ := by
  unfold read
  cases read? text <;> simp [eq_comm]

/-- A numeral has no other spelling than its text. -/
theorem Numeral.toList_text (numeral : Numeral) : numeral.text.toList = numeral.chars :=
  String.toList_ofList

/-- A text is read exactly as the numerals that it is. -/
theorem read?_eq_some_iff {text : String} {n : Decimal} :
    read? text = some n ↔
      ∃ numeral : Numeral, numeral.text = text ∧ numeral.InRange ∧ n.value = numeral.value := by
  constructor
  · intro found
    obtain ⟨spelling, spelled, -⟩ := Option.bind_eq_some_iff.1 found
    obtain ⟨numeral, chars, -⟩ := exists_numeral spelled
    have same : numeral.text = text := by
      rw [Numeral.text, chars, String.ofList_toList]
    unfold read? at found
    rw [← chars, numeral.readChars?_chars, numeral.fits_iff] at found
    obtain ⟨range, rfl⟩ := found
    exact ⟨numeral, same, range, numeral.value_number⟩
  · rintro ⟨numeral, rfl, range, same⟩
    unfold read?
    rw [numeral.toList_text, numeral.readChars?_chars, numeral.fits_iff]
    exact ⟨range, value_injective (same.trans numeral.value_number.symm)⟩

/--
A text is read exactly when it is a numeral in range, as the decimal of the number that the numeral
denotes; the error of any other text carries the whole text.
-/
theorem read_exactly_numerals (text : String) :
    ((∃ n, read text = .ok n) ↔ ∃ numeral : Numeral, numeral.text = text ∧ numeral.InRange) ∧
    (∀ n, read text = .ok n ↔
      ∃ numeral : Numeral, numeral.text = text ∧ numeral.InRange ∧ n.value = numeral.value) ∧
    ∀ error, read text = .error error ↔
      (∀ numeral : Numeral, numeral.text = text → ¬ numeral.InRange) ∧ error = ⟨text⟩ := by
  have accepted : ∀ n, read text = .ok n ↔
      ∃ numeral : Numeral, numeral.text = text ∧ numeral.InRange ∧ n.value = numeral.value :=
    fun n => read_eq_ok_iff.trans read?_eq_some_iff
  have found : (∃ n, read text = .ok n) ↔
      ∃ numeral : Numeral, numeral.text = text ∧ numeral.InRange := by
    constructor
    · rintro ⟨n, own⟩
      obtain ⟨numeral, same, range, -⟩ := (accepted n).1 own
      exact ⟨numeral, same, range⟩
    · rintro ⟨numeral, same, range⟩
      exact ⟨numeral.spelling.number, (accepted _).2 ⟨numeral, same, range, numeral.value_number⟩⟩
  refine ⟨found, accepted, fun error => ?_⟩
  have refused : read? text = none ↔ ¬ ∃ n, read text = .ok n := by
    simp only [read_eq_ok_iff, ← Option.isSome_iff_exists, Bool.not_eq_true,
      Option.isSome_eq_false_iff, Option.isNone_iff_eq_none]
  rw [read_eq_error_iff, refused, found]
  simp only [not_exists, not_and]

end TypedTree.Decimal
