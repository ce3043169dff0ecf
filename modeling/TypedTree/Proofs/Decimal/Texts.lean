import TypedTree.Proofs.Decimal.Origins

/-!
# Texts read back

The decimals that can be made are those whose exponent is a word. The text of such a decimal is read
as it as long as the exponent of its first digit is a word, too, in whichever layout it is written;
beyond that the text is refused. No text is read as another decimal than the one that it was written
for, so no two decimals have one text.
-/

namespace TypedTree.Decimal

/-! ## The decimals that can be made -/

/-- A decimal that is made from something. -/
def Made (n : Decimal) : Prop := ∃ origin : Origin, origin.decimal? = some n

/-- The exponent of a decimal that is read is a word. -/
theorem fitsInt64_of_readChars? {text : List Char} {n : Decimal} (read : readChars? text = some n) :
    fitsInt64 n.exponent = true := by
  obtain ⟨spelling, -, spelled⟩ := Option.bind_eq_some_iff.1 read
  obtain ⟨⟨-, low, high⟩, rfl⟩ := Spelling.decimal?_eq_some_iff.1 spelled
  refine fitsInt64_iff.2 ⟨?_, high⟩
  unfold Spelling.number
  by_cases zero : spelling.significand = 0
  · rw [zero, reduce_zero]
    decide
  · -- the zeros that are dropped raise the exponent
    obtain ⟨-, -, exponent⟩ :=
      reduce_parts spelling.negative spelling.lastPlace (Nat.pos_of_ne_zero zero)
    omega

/-- The exponent of an integer of a machine word is a word. -/
theorem fitsInt64_exponent_ofInt {value : Int} (small : value.natAbs < 2 ^ 64) :
    fitsInt64 (ofInt value).exponent = true := by
  apply fitsInt64_iff.2
  by_cases zero : value = 0
  · subst zero
    have none : ofInt 0 = Decimal.zero := reduce_zero false 0
    rw [none]
    decide
  · have positive : 0 < value.natAbs := Int.natAbs_pos.2 zero
    obtain ⟨-, -, exponent⟩ := ofInt_parts positive
    have kept := dropZeros_pos positive
    have few : (dropZeros value.natAbs).2 < 64 := by
      apply (Nat.pow_lt_pow_iff_right (by decide : 1 < 2)).1
      calc
        2 ^ (dropZeros value.natAbs).2 ≤ 10 ^ (dropZeros value.natAbs).2 :=
          Nat.pow_le_pow_left (by decide) _
        _ ≤ (dropZeros value.natAbs).1 * 10 ^ (dropZeros value.natAbs).2 :=
          Nat.le_mul_of_pos_left _ kept
        _ = value.natAbs := dropZeros_value value.natAbs
        _ < 2 ^ 64 := small
    unfold int64Bound
    omega

/-- The exponent of a decimal that is made is a word. -/
theorem Origin.fitsInt64_exponent {origin : Origin} {n : Decimal}
    (made : origin.decimal? = some n) : fitsInt64 n.exponent = true := by
  have double : ∀ x, ofBinary64? x = some n → fitsInt64 n.exponent = true := fun x read =>
    fitsInt64_of_readChars? read
  cases origin with
  | numeral text => exact fitsInt64_of_readChars? made
  | int64 value =>
    obtain rfl := Option.some.inj made
    have low := value.le_toInt
    have high := value.toInt_lt
    exact fitsInt64_exponent_ofInt (by omega)
  | uint64 value =>
    obtain rfl := Option.some.inj made
    have small := value.toNat_lt
    exact fitsInt64_exponent_ofInt (by omega)
  | double x => exact double x made
  | document known kept =>
    cases known with
    | int value =>
      obtain rfl := Option.some.inj made
      have bounds : -int64Bound ≤ value ∧ value < 2 * int64Bound := by
        simpa [Json.Number.Kept, Json.fitsWord] using kept
      unfold int64Bound at bounds
      exact fitsInt64_exponent_ofInt (by omega)
    | float x => exact double x made

/-- A decimal whose exponent is a word is read from its digits with the exponent behind them. -/
theorem made_of_fits {n : Decimal} (fits : fitsInt64 n.exponent = true) : n.Made := by
  by_cases zero : n.significand = 0
  · have none : n = Decimal.zero := by
      rw [← reduce_self n, zero]
      exact reduce_zero _ _
    exact ⟨.int64 0, congrArg some ((reduce_zero false 0).trans none.symm)⟩
  · have positive : 0 < n.significand := Nat.pos_of_ne_zero zero
    have whole := Positional.whole (digits_ne_nil positive) fun c => isDigit_of_mem_digits positive
    obtain ⟨numeral, -, negative, power, significand, place⟩ :=
      whole.exists_spelling n.negative (some n.exponent)
    have last : numeral.spelling.lastPlace = n.exponent := place.trans (Int.sub_zero n.exponent)
    have number : numeral.spelling.number = n := by
      rw [Spelling.number, negative, significand, last, ofDigitChars_digits]
      exact reduce_self n
    obtain ⟨low, high⟩ := fitsInt64_iff.1 fits
    refine ⟨.numeral numeral.text, ?_⟩
    show readChars? numeral.text.toList = some n
    rw [numeral.toList_text, numeral.readChars?_chars]
    exact ⟨⟨power ▸ fits, last ▸ low, number ▸ high⟩, number.symm⟩

/-- The decimals that can be made are those whose exponent is a word. -/
theorem made_iff (n : Decimal) : n.Made ↔ fitsInt64 n.exponent = true := by
  constructor
  · rintro ⟨origin, made⟩
    exact origin.fitsInt64_exponent made
  · exact made_of_fits

/-! ## The text of a decimal -/

/-- A text spells out the decimal that it was written for, and the exponent that it shows. -/
theorem read?_text_iff (n m : Decimal) :
    read? n.text = some m ↔
      (fitsInt64 n.shownPower = true ∧ -int64Bound ≤ n.exponent - n.padding ∧
        n.exponent < int64Bound) ∧ m = n := by
  obtain ⟨numeral, written, power, last, number⟩ := exists_numeral_of_text n
  have chars : n.text.toList = numeral.chars := String.toList_ofList.trans written.symm
  unfold read?
  rw [chars, numeral.readChars?_chars, Spelling.Fits, power, ← last, number]

/-- Different decimals have different texts. -/
theorem text_injective : Function.Injective text := by
  intro n m same
  obtain ⟨numeral, written, -, -, number⟩ := exists_numeral_of_text n
  obtain ⟨other, also, -, -, third⟩ := exists_numeral_of_text m
  have chars : n.chars = m.chars := String.ofList_injective same
  have spelled := numeral.readSpelling?_chars
  rw [written, chars, ← also, other.readSpelling?_chars] at spelled
  rw [← number, ← third, Option.some.inj spelled]

/-- A decimal that is not written positionally has digits. -/
theorem length_digits_pos {n : Decimal} (scientific : ¬ n.Plain) : 0 < n.digits.length := by
  apply Nat.pos_of_ne_zero
  intro none
  have zero : n.significand = 0 := by
    rw [← n.ofDigitChars_digits, List.eq_nil_of_length_eq_zero none, Nat.ofDigitChars_nil]
  have exponent : n.exponent = 0 := (n.reduced (by rw [zero])).2.2
  apply scientific
  unfold Plain point paddingLimit
  omega

/-- The text of a decimal whose exponent is a word is read when the exponent it shows is one. -/
theorem read?_text {n : Decimal} (fits : fitsInt64 n.exponent = true) (m : Decimal) :
    read? n.text = some m ↔ n.shownPower < int64Bound ∧ m = n := by
  obtain ⟨low, high⟩ := fitsInt64_iff.1 fits
  rw [read?_text_iff, fitsInt64_iff]
  apply and_congr_left
  intro _
  unfold padding
  by_cases plain : n.Plain
  · have bound : (0 : Int) < int64Bound := by decide
    rw [shownPower_of_plain plain, if_pos plain]
    omega
  · have some := length_digits_pos plain
    rw [shownPower_of_not_plain plain, if_neg plain, point]
    omega

/-- A positional text is at least as long as the integer part of the decimal. -/
theorem point_le_length_text {n : Decimal} (plain : n.Plain) : n.point ≤ n.text.length := by
  have positional : n.point ≤ n.positionalChars.length := by
    unfold positionalChars point
    split
    · rw [List.length_append, List.length_replicate]
      omega
    · split
      · rw [List.length_append, List.length_cons, List.length_take, List.length_drop]
        omega
      · rw [List.length_append]
        omega
  by_cases zero : n.significand = 0
  · have none : n.digits = [] := if_pos zero
    have exponent : n.exponent = 0 := (n.reduced (by rw [zero])).2.2
    rw [point, none, exponent]
    exact Int.natCast_nonneg _
  · rw [text, String.length_ofList, chars, isZero, beq_false_of_ne zero, unsignedChars_eq,
      if_pos plain]
    cases n.negative with
    | false => exact positional
    | true =>
      show n.point ≤ (('-' :: n.positionalChars).length : Int)
      rw [List.length_cons]
      omega

/--
Texts are read back up to the edge of the exponents. The text of a decimal that can be made is read
as it when the exponent of its first digit is a word; otherwise the text, if it is one of fewer than
`2 ^ 63` characters, is refused as a whole. No text is read as another decimal, and different
decimals have different texts.
-/
theorem texts_read_back {n : Decimal} (made : n.Made) :
    (n.exponent + n.digits.length - 1 < int64Bound → read n.text = .ok n) ∧
    (int64Bound ≤ n.exponent + n.digits.length - 1 → n.text.length < int64Bound →
      read n.text = .error ⟨n.text⟩) ∧
    (∀ m, read n.text = .ok m → m = n) ∧
    ∀ m : Decimal, m.Made → m.text = n.text → m = n := by
  have found := read?_text ((made_iff n).1 made)
  have first : n.point = n.exponent + n.digits.length := Int.add_comm _ _
  refine ⟨fun inside => ?_, fun outside short => ?_, fun m own => ?_,
    fun m _ same => text_injective same⟩
  · rw [read_eq_ok_iff, found]
    refine ⟨?_, rfl⟩
    by_cases plain : n.Plain
    · rw [shownPower_of_plain plain]
      decide
    · rw [shownPower_of_not_plain plain]
      omega
  · rw [read_eq_error_iff]
    refine ⟨?_, rfl⟩
    -- a positional text with that many digits would be longer
    have scientific : ¬ n.Plain := by
      intro plain
      have long := point_le_length_text plain
      omega
    apply Option.eq_none_iff_forall_ne_some.2
    intro m own
    have small := ((found m).1 own).1
    rw [shownPower_of_not_plain scientific] at small
    omega
  · exact ((found m).1 (read_eq_ok_iff.1 own)).2

/-- The decimal `15 * 10 ^ exponent`. -/
def fifteen (exponent : Int) : Decimal := ⟨false, 15, exponent, fun ends => by cases ends⟩

/-- Two digits are read back with the last exponent but one, and are refused with the last one. -/
theorem fifteen_at_the_edge :
    (fifteen 0x7ffffffffffffffe).text = "1.5e9223372036854775807" ∧
    read (fifteen 0x7ffffffffffffffe).text = .ok (fifteen 0x7ffffffffffffffe) ∧
    (fifteen 0x7fffffffffffffff).text = "1.5e9223372036854775808" ∧
    read (fifteen 0x7fffffffffffffff).text = .error ⟨(fifteen 0x7fffffffffffffff).text⟩ := by
  refine ⟨by decide, ?_, by decide, ?_⟩
  · exact (texts_read_back (made_of_fits (by decide))).1 (by decide)
  · exact (texts_read_back (made_of_fits (by decide))).2.1 (by decide) (by decide)

end TypedTree.Decimal
