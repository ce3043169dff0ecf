import TypedTree.Json.Basic
import TypedTree.Proofs.Binary64.Shortest
import TypedTree.Proofs.Decimal.Range
import TypedTree.Proofs.Decimal.Reading

/-!
# What decimals are made from

A decimal is made from a numeral, from an integer of a machine word, from a double or from a number
of a document. In whichever way it is made, it is in normal form and denotes what it was made from:
of a whole double the integer that it is, of any other double its shortest decimal. Lowest terms are
unique, so two decimals are equal exactly when they denote one rational number, wherever each of
them comes from.
-/

namespace TypedTree

/-! ## Doubles -/

namespace Binary64

/--
The shortest decimal of a double: its text is read as the double, no decimal of fewer digits is, and
none of as many digits that is read as the double is closer to it.
-/
structure IsShortest (x : Binary64) (n : Decimal) : Prop where
  readsBack : readChars? n.chars = some x
  fewest : ∀ m : Decimal, readChars? m.chars = some x → n.digits.length ≤ m.digits.length
  closest : ∀ m : Decimal, readChars? m.chars = some x → m.digits.length = n.digits.length →
    |n.value - x.value| ≤ |m.value - x.value|

/-- What a double denotes: the integer that it is, or its shortest decimal if it is none. -/
structure Denotes (x : Binary64) (n : Decimal) : Prop where
  whole : (∃ value : Int, x.value = value) → n.value = x.value
  shortest : (¬ ∃ value : Int, x.value = value) → x.IsShortest n

/-- The text of a decimal is read as the double of its sign that is nearest to its magnitude. -/
theorem readChars?_eq_some_iff {n : Decimal} {x : Binary64} :
    readChars? n.chars = some x ↔
      x.negative = n.negative ∧ ReadAs x.rank (onGrid n.significand n.exponent) := by
  rw [Decimal.readChars?_chars, nearest?_eq_some_iff, readAs_iff]
  rfl

/-- A whole magnitude is an exact quotient. -/
theorem magnitude_of_isWhole {rank : Nat} (whole : isWhole rank = true) :
    magnitude rank = (units rank / unitsPerOne : Nat) := by
  have divides : unitsPerOne ∣ units rank := Nat.dvd_of_mod_eq_zero (beq_iff_eq.1 whole)
  have counted := Nat.div_mul_cancel divides
  have product := magnitude_mul_unitsPerOne rank
  have cast : ((units rank / unitsPerOne : Nat) : ℚ) * unitsPerOne = units rank := by
    rw [← Nat.cast_mul, counted]
  exact mul_right_cancel₀ (ne_of_gt cast_unitsPerOne_pos) (product.trans cast.symm)

/-- The value of a whole double is the integer that it is. -/
theorem value_of_isWhole {x : Binary64} (whole : isWhole x.rank = true) : x.value = x.toInt := by
  unfold value
  rw [magnitude_of_isWhole whole]
  exact (cast_signed x.negative _).symm

theorem magnitude_nonneg (rank : Nat) : 0 ≤ magnitude rank :=
  div_nonneg (Nat.cast_nonneg _) cast_unitsPerOne_pos.le

/-- A double is whole exactly when its value is an integer. -/
theorem isWhole_iff_value (x : Binary64) :
    isWhole x.rank = true ↔ ∃ value : Int, x.value = value := by
  constructor
  · intro whole
    exact ⟨x.toInt, value_of_isWhole whole⟩
  · rintro ⟨value, same⟩
    have size : magnitude x.rank = value.natAbs := by
      rw [Nat.cast_natAbs, Int.cast_abs, ← same]
      exact (abs_signed x.negative (magnitude_nonneg x.rank)).symm
    have product := magnitude_mul_unitsPerOne x.rank
    rw [size] at product
    have counted : value.natAbs * unitsPerOne = units x.rank := by exact_mod_cast product
    unfold isWhole
    rw [← counted, Nat.mul_mod_left]
    rfl

theorem rank_pos_of_not_whole {x : Binary64} (broken : ¬ isWhole x.rank = true) : 0 < x.rank := by
  apply Nat.pos_of_ne_zero
  intro zero
  rw [zero] at broken
  exact broken isWhole_zero

/-- What is read as a double other than zero has digits, the sign of the double and its rank. -/
theorem of_readChars?_eq_some {x : Binary64} (positive : 0 < x.rank) {m : Decimal}
    (back : readChars? m.chars = some x) :
    m.digits.length = (Nat.toDigits 10 m.significand).length ∧
      ReadAs x.rank (onGrid m.significand m.exponent) ∧
      m.value = signed x.negative (onGrid m.significand m.exponent) := by
  obtain ⟨sign, read⟩ := readChars?_eq_some_iff.1 back
  have present : 0 < m.significand := by
    apply pos_of_nearestRankOfDecimal
    rw [(readAs_iff _ _ _).2 read]
    exact positive
  refine ⟨by rw [Decimal.digits_of_pos present], read, ?_⟩
  rw [sign]
  rfl

/-- A double that is not whole stands for the shortest decimal of its rank, with its sign. -/
theorem parts_ofBinary64 {x : Binary64} (broken : ¬ isWhole x.rank = true) :
    (Decimal.ofBinary64 x).negative = x.negative ∧
      (Decimal.ofBinary64 x).digits = (shortest .up x.rank).digits ∧
      onGrid (Decimal.ofBinary64 x).significand (Decimal.ofBinary64 x).exponent =
        (shortest .up x.rank).value := by
  have positive := rank_pos_of_not_whole broken
  obtain ⟨unsigned, read, -⟩ := shortest_spec .up positive
  have made : Decimal.ofBinary64 x = Decimal.reduce x.negative (shortest .up x.rank).significand
      (shortest .up x.rank).exponent := if_neg broken
  generalize shortest .up x.rank = magnitude at *
  have own : magnitude.value = onGrid magnitude.significand magnitude.exponent := by
    unfold Decimal.value
    rw [unsigned]
    rfl
  have present : 0 < magnitude.significand := by
    apply pos_of_nearestRankOfDecimal
    rw [(readAs_iff _ _ _).2 (own ▸ read)]
    exact positive
  obtain ⟨sign, significand, exponent⟩ := magnitude.reduce_own x.negative present
  rw [← made] at sign significand exponent
  refine ⟨sign, ?_, by rw [significand, exponent, own]⟩
  unfold Decimal.digits
  rw [significand]

/-- A double that is not whole stands for its shortest decimal. -/
theorem isShortest_ofBinary64 {x : Binary64} (broken : ¬ isWhole x.rank = true) :
    x.IsShortest (Decimal.ofBinary64 x) := by
  have positive := rank_pos_of_not_whole broken
  obtain ⟨-, read, least⟩ := shortest_spec .up positive
  obtain ⟨sign, digits, grid⟩ := parts_ofBinary64 broken
  have back : readChars? (Decimal.ofBinary64 x).chars = some x := by
    apply readChars?_eq_some_iff.2
    rw [sign, grid]
    exact ⟨rfl, read⟩
  obtain ⟨-, -, value⟩ := of_readChars?_eq_some positive back
  refine ⟨back, fun m other => ?_, fun m other equal => ?_⟩
  · obtain ⟨length, own, -⟩ := of_readChars?_eq_some positive other
    rw [digits, length]
    exact (least _ _ own).1
  · obtain ⟨length, own, same⟩ := of_readChars?_eq_some positive other
    rw [digits, length] at equal
    rw [value, same, grid]
    unfold Binary64.value
    rw [abs_signed_sub, abs_signed_sub]
    exact (least _ _ own).2 equal

end Binary64

/-- A number as a document holds it: an integer of a signed or an unsigned word, or a double. -/
def Json.Number.Kept : Json.Number → Prop
  | .int value => Json.fitsWord value = true
  | .float _ => True

namespace Decimal

/-! ## Normal form -/

/--
The normal form of a decimal: its digits begin and end with another digit than zero, zero has no
digits, no exponent and no sign, and the digits denote the decimal at its exponent.
-/
structure Normal (n : Decimal) : Prop where
  decimal : ∀ c ∈ n.digits, c.isDigit = true
  leading : n.digits.head? ≠ some '0'
  trailing : n.digits.getLast? ≠ some '0'
  zero : n.value = 0 → n.digits = [] ∧ n.exponent = 0 ∧ n.negative = false
  counted : n.value = signed n.negative (Nat.ofDigitChars 10 n.digits 0 * 10 ^ n.exponent)

/-- A positive number is written without leading zeros. -/
theorem head?_toDigits {number : Nat} (positive : 0 < number) :
    (Nat.toDigits 10 number).head? ≠ some '0' := by
  induction number using Nat.strongRecOn with
  | ind number ih =>
    by_cases small : number < 10
    · rw [Nat.toDigits_of_lt_base small, List.head?_cons, ne_eq, Option.some.injEq,
        Nat.digitChar_eq_zero]
      omega
    · have long : 10 ≤ number := Nat.le_of_not_lt small
      have before := ih (number / 10) (by omega) (by omega)
      rwa [Nat.toDigits_of_base_le (by decide) long,
        List.head?_append_of_ne_nil _ Nat.toDigits_ne_nil]

/-- A number that does not end in zero is written without trailing zeros. -/
theorem getLast?_toDigits {number : Nat} (last : number % 10 ≠ 0) :
    (Nat.toDigits 10 number).getLast? ≠ some '0' := by
  have digit : (Nat.toDigits 10 number).getLast? = some (number % 10).digitChar := by
    by_cases small : number < 10
    · rw [Nat.toDigits_of_lt_base small, Nat.mod_eq_of_lt small]
      rfl
    · have long : 10 ≤ number := Nat.le_of_not_lt small
      rw [Nat.toDigits_of_base_le (by decide) long, List.getLast?_concat]
  rw [digit, ne_eq, Option.some.injEq, Nat.digitChar_eq_zero]
  exact last

/-- The digits of an integer are those that it is written with, less the zeros behind them. -/
theorem digits_ofInt {value : Int} (present : value ≠ 0) :
    (ofInt value).digits = withoutZeros (Nat.toDigits 10 value.natAbs) ∧
      (ofInt value).exponent = trailingZeros (Nat.toDigits 10 value.natAbs) := by
  have positive : 0 < value.natAbs := Int.natAbs_pos.2 present
  have made : Nat.ofDigitChars 10 (Nat.toDigits 10 value.natAbs) 0 = value.natAbs :=
    Nat.ofDigitChars_ten_toDigits
  have decimal : ∀ c ∈ Nat.toDigits 10 value.natAbs, c.isDigit = true := fun c =>
    Nat.isDigit_of_mem_toDigits (by decide) (by decide)
  have some : Nat.ofDigitChars 10 (Nat.toDigits 10 value.natAbs) 0 ≠ 0 := by omega
  obtain ⟨digits, exponent⟩ := reduce_ofDigitChars decimal some (value < 0) 0
  rw [made] at digits exponent
  refine ⟨digits.trans ?_, exponent.trans (Int.zero_add _)⟩
  -- no zeros stand before the digits of an integer
  have leading := head?_toDigits positive
  obtain ⟨lead, rest, split⟩ := List.exists_cons_of_ne_nil
    (Nat.toDigits_ne_nil (n := value.natAbs) (b := 10))
  rw [split, List.head?_cons, ne_eq, Option.some.injEq] at leading
  rw [trimmed, split, List.dropWhile_cons_of_neg (by rwa [beq_iff_eq])]

/-- The digits of a numeral are those that are written, less the zeros before and behind them. -/
theorem Numeral.digits_number (numeral : Numeral) (present : ¬ ∀ c ∈ numeral.digits, c = '0') :
    numeral.spelling.number.digits = trimmed numeral.digits ∧
      numeral.spelling.number.exponent =
        numeral.power - numeral.places + trailingZeros numeral.digits := by
  have decimal : ∀ c ∈ numeral.digits, c.isDigit = true := fun c => numeral.isDigit_of_mem_digits
  have some : Nat.ofDigitChars 10 numeral.digits 0 ≠ 0 := fun zero =>
    present ((ofDigitChars_eq_zero_iff decimal).1 zero)
  exact reduce_ofDigitChars decimal some numeral.sign.negative (numeral.power - numeral.places)

/-- Every decimal is in normal form. -/
theorem normal (n : Decimal) : n.Normal := by
  have counted :
      n.value = signed n.negative (Nat.ofDigitChars 10 n.digits 0 * 10 ^ n.exponent) := by
    rw [ofDigitChars_digits]
    rfl
  have none : n.value = 0 → n.digits = [] ∧ n.exponent = 0 ∧ n.negative = false := by
    rw [value_eq_zero_iff]
    rintro rfl
    exact ⟨rfl, rfl, rfl⟩
  by_cases zero : n.significand = 0
  · have empty : n.digits = [] := if_pos zero
    refine ⟨?_, ?_, ?_, none, counted⟩ <;> simp [empty]
  · have positive : 0 < n.significand := Nat.pos_of_ne_zero zero
    have digits := digits_of_pos positive
    have last : n.significand % 10 ≠ 0 := fun ends => zero (n.reduced ends).2.1
    refine ⟨fun c => isDigit_of_mem_digits positive, ?_, ?_, none, counted⟩
    · rw [digits]
      exact head?_toDigits positive
    · rw [digits]
      exact getLast?_toDigits last

/-- Decimals are equal when their signs, their digits and their exponents are. -/
theorem eq_iff_digits {n m : Decimal} :
    n = m ↔ n.negative = m.negative ∧ n.digits = m.digits ∧ n.exponent = m.exponent := by
  constructor
  · rintro rfl
    exact ⟨rfl, rfl, rfl⟩
  · rintro ⟨sign, digits, exponent⟩
    have significand : n.significand = m.significand := by
      rw [← n.ofDigitChars_digits, digits, m.ofDigitChars_digits]
    rw [← reduce_self n, sign, significand, exponent, reduce_self m]

/-! ## Origins -/

/-- What a decimal is made from. -/
inductive Origin where
  | numeral (text : String)
  | int64 (value : Int64)
  | uint64 (value : UInt64)
  | double (x : Binary64)
  | document (known : Json.Number) (kept : known.Kept)

namespace Origin

/-- The decimal that is made from an origin; a text that is not read makes none. -/
def decimal? : Origin → Option Decimal
  | numeral text => read? text
  | int64 value => some (ofInt value.toInt)
  | uint64 value => some (ofInt value.toNat)
  | double x => ofBinary64? x
  | document known _ => ofJson? known

/-- A decimal denotes exactly the number that its origin is. -/
def Denotes : Origin → Decimal → Prop
  | numeral text, n => ∃ numeral : Numeral, numeral.text = text ∧ n.value = numeral.value
  | int64 value, n => n.value = value.toInt
  | uint64 value, n => n.value = value.toNat
  | double x, n => x.Denotes n
  | document (.int value) _, n => n.value = value
  | document (.float x) _, n => x.Denotes n

end Origin

/-- The decimal that a double stands for denotes it. -/
theorem denotes_ofBinary64 (x : Binary64) : x.Denotes (ofBinary64 x) := by
  constructor
  · intro whole
    have own := (Binary64.isWhole_iff_value x).2 whole
    rw [ofBinary64_of_isWhole own, value_ofInt, Binary64.value_of_isWhole own]
  · intro broken
    exact Binary64.isShortest_ofBinary64 fun whole =>
      broken ((Binary64.isWhole_iff_value x).1 whole)

/-- The decimal that is made from an origin denotes it. -/
theorem Origin.denotes_decimal {origin : Origin} {n : Decimal} (made : origin.decimal? = some n) :
    origin.Denotes n := by
  cases origin with
  | numeral text =>
    obtain ⟨numeral, same, -, value⟩ := read?_eq_some_iff.1 made
    exact ⟨numeral, same, value⟩
  | int64 value =>
    obtain rfl := Option.some.inj made
    exact value_ofInt value.toInt
  | uint64 value =>
    obtain rfl := Option.some.inj made
    exact value_ofInt value.toNat
  | double x =>
    obtain rfl := Option.some.inj ((ofBinary64?_eq x).symm.trans made)
    exact denotes_ofBinary64 x
  | document known kept =>
    obtain rfl := Option.some.inj ((ofJson?_eq known).symm.trans made)
    cases known with
    | int value => exact value_ofInt value
    | float x => exact denotes_ofBinary64 x

/--
Equality of decimals is numeric equality. A decimal, whatever it is made from, is in normal form,
denotes its origin and is an integer exactly when it says so; and it equals another one, whatever
that is made from, exactly when both denote the same number.
-/
theorem Origin.equality_is_numeric {origin : Origin} {n : Decimal}
    (made : origin.decimal? = some n) :
    n.Normal ∧ origin.Denotes n ∧ (n.isInteger = true ↔ ∃ value : Int, n.value = value) ∧
    ∀ (other : Origin) (m : Decimal), other.decimal? = some m →
      (n = m ↔ n.value = m.value) ∧
      (n = m ↔ n.negative = m.negative ∧ n.digits = m.digits ∧ n.exponent = m.exponent) :=
  ⟨n.normal, origin.denotes_decimal made, isInteger_iff_value n,
    fun _ _ _ => ⟨value_inj.symm, eq_iff_digits⟩⟩

/-- A numeral with a zero to spare and a word make the same decimal. -/
theorem Origin.numeral_equals_word :
    read? "150e-1" = some (ofInt 15) ∧ (Origin.numeral "150e-1").Denotes (ofInt 15) ∧
      (Origin.int64 15).decimal? = some (ofInt 15) ∧
      (ofInt 15 = ofInt 15 ↔ (ofInt 15).value = (ofInt 15).value) := by
  have made : (Origin.numeral "150e-1").decimal? = some (ofInt 15) := by decide +kernel
  obtain ⟨-, denotes, -, equal⟩ := Origin.equality_is_numeric made
  exact ⟨made, denotes, rfl, (equal (.int64 15) (ofInt 15) rfl).1⟩

end Decimal
end TypedTree
