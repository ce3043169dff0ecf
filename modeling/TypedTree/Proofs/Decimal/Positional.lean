import TypedTree.Json.Basic
import TypedTree.Proofs.Binary64.Readback
import TypedTree.Proofs.Decimal.Numerals

/-!
# Doubles are read

A text of digits with at most one point behind the first of them is read as the decimal that its
digits make. The text of a double is of this kind, and far from the limits on exponents, so every
double is read, as the decimal that it stands for.
-/

namespace TypedTree.Decimal

/-! ## Positional texts -/

/--
A text without sign and exponent, the number that all of its digits make, and how many of them
stand behind the point.
-/
inductive Positional : List Char → Nat → Nat → Prop
  | whole {digits : List Char} : digits ≠ [] → (∀ c ∈ digits, c.isDigit = true) →
      Positional digits (Nat.ofDigitChars 10 digits 0) 0
  | pointed {digits fraction : List Char} : digits ≠ [] → (∀ c ∈ digits, c.isDigit = true) →
      (∀ c ∈ fraction, c.isDigit = true) →
      Positional (digits ++ '.' :: fraction) (Nat.ofDigitChars 10 (digits ++ fraction) 0)
        fraction.length

namespace Positional

variable {text : List Char} {significand places : Nat}

/-- A positional text is the mantissa of a numeral. -/
theorem exists_numeral (positional : Positional text significand places) (sign : Sign)
    (exponent : Option Exponent) :
    ∃ numeral : Numeral,
      numeral.chars = sign.chars ++ (text ++ (exponent.map Exponent.chars).getD []) ∧
        numeral.sign = sign ∧ numeral.exponent = exponent ∧
          numeral.spelling.significand = significand ∧ numeral.places = places := by
  cases positional with
  | whole present decimal =>
    have kept : text ++ [] = text := List.append_nil text
    refine ⟨⟨sign, text, none, exponent, ?_, ?_⟩, ?_, rfl, rfl, ?_, rfl⟩
    · exact fun none => present (kept.symm.trans none)
    · intro c held
      rw [Option.getD_none, kept] at held
      exact decimal c held
    · show sign.chars ++ ((text ++ []) ++ (exponent.map Exponent.chars).getD []) = _
      rw [kept]
    · show Nat.ofDigitChars 10 (text ++ []) 0 = _
      rw [kept]
  | @pointed digits fraction present decimal behind =>
    refine ⟨⟨sign, digits, fraction, exponent, ?_, ?_⟩, rfl, rfl, rfl, rfl, rfl⟩
    · exact fun none => present (List.append_eq_nil_iff.1 none).1
    · exact fun c held => (List.mem_append.1 held).elim (decimal c) (behind c)

/-- A positional text is read as the decimal that its digits make, within the limits of a word. -/
theorem read (positional : Positional text significand places) (negative : Bool)
    (low : places ≤ int64Bound)
    (high : (reduce negative significand (-places)).exponent < int64Bound) :
    readChars? (if negative then '-' :: text else text) =
      some (reduce negative significand (-places)) := by
  let sign : Sign := if negative then .minus else .absent
  obtain ⟨numeral, spelled, signed, plain, rfl, rfl⟩ := positional.exists_numeral sign none
  have written : numeral.chars = if negative then '-' :: text else text := by
    rw [spelled]
    show sign.chars ++ (text ++ []) = _
    rw [List.append_nil]
    cases negative <;> rfl
  have minus : numeral.spelling.negative = negative := by
    show numeral.sign.negative = negative
    rw [signed]
    cases negative <;> rfl
  have power : numeral.spelling.exponent = 0 := by
    show (numeral.exponent.map Exponent.value).getD 0 = 0
    rw [plain]
    rfl
  have last : numeral.spelling.lastPlace = -numeral.places := by
    unfold Spelling.lastPlace
    rw [power, Int.zero_sub]
    rfl
  rw [← written, numeral.readChars?_chars]
  unfold Spelling.Fits Spelling.number
  rw [minus, power, last]
  exact ⟨⟨rfl, by omega, high⟩, rfl⟩

end Positional

/-! ## The positional text of a decimal -/

/-- The digits of a decimal make its significand. -/
theorem ofDigitChars_digits (n : Decimal) : Nat.ofDigitChars 10 n.digits 0 = n.significand := by
  unfold digits
  by_cases zero : n.significand = 0
  · rw [if_pos zero, zero, Nat.ofDigitChars_nil]
  · rw [if_neg zero]
    exact Nat.ofDigitChars_ten_toDigits

section Writing

variable {n : Decimal} (positive : 0 < n.significand)
include positive

theorem digits_ne_nil : n.digits ≠ [] := by
  rw [digits_of_pos positive]
  exact Nat.toDigits_ne_nil

theorem isDigit_of_mem_digits {c : Char} (held : c ∈ n.digits) : c.isDigit = true := by
  rw [digits_of_pos positive] at held
  exact Nat.isDigit_of_mem_toDigits (by decide) (by decide) held

/-- A positive decimal is written as a positional text of its value. -/
theorem positional_positionalChars :
    Positional n.positionalChars (n.significand * 10 ^ n.exponent.toNat)
      (-n.exponent).toNat := by
  have made := n.ofDigitChars_digits
  have present := digits_ne_nil positive
  have each : ∀ c ∈ n.digits, c.isDigit = true := fun c => isDigit_of_mem_digits positive
  have zeros : ∀ count, ∀ c ∈ List.replicate count '0', c.isDigit = true := by
    intro count c held
    obtain rfl := List.eq_of_mem_replicate held
    rfl
  unfold positionalChars
  by_cases whole : 0 ≤ n.exponent
  · have places : (-n.exponent).toNat = 0 := by omega
    have value : n.significand * 10 ^ n.exponent.toNat =
        Nat.ofDigitChars 10 (n.digits ++ List.replicate n.exponent.toNat '0') 0 := by
      rw [Nat.ofDigitChars_append, made, Nat.ofDigitChars_replicate_zero, Nat.mul_comm]
    rw [if_pos whole, places, value]
    apply Positional.whole
    · exact fun none => present (List.append_eq_nil_iff.1 none).1
    · exact fun c held => (List.mem_append.1 held).elim (each c) (zeros _ c)
  · have power : n.exponent.toNat = 0 := by omega
    rw [if_neg whole, power, Nat.pow_zero, Nat.mul_one]
    by_cases inside : 0 < n.point
    · -- the point stands among the digits
      have split : n.digits.take n.point.toNat ++ n.digits.drop n.point.toNat = n.digits :=
        List.take_append_drop _ _
      have places : (n.digits.drop n.point.toNat).length = (-n.exponent).toNat := by
        rw [List.length_drop]
        unfold point at *
        omega
      have some : n.digits.take n.point.toNat ≠ [] := by
        intro none
        rcases List.take_eq_nil_iff.1 none with zero | zero
        · omega
        · exact present zero
      rw [if_pos inside, ← places]
      conv => arg 2; rw [← made, ← split]
      exact .pointed some (fun c held => each c (List.mem_of_mem_take held))
        (fun c held => each c (List.mem_of_mem_drop held))
    · -- the point stands before them, with zeros between
      have places : (List.replicate (-n.point).toNat '0' ++ n.digits).length =
          (-n.exponent).toNat := by
        rw [List.length_append, List.length_replicate]
        unfold point at *
        omega
      have value : Nat.ofDigitChars 10 (['0'] ++ (List.replicate (-n.point).toNat '0' ++ n.digits))
          0 = n.significand := by
        have lead : Nat.ofDigitChars 10 ['0'] 0 = 0 := rfl
        rw [Nat.ofDigitChars_append, lead, Nat.ofDigitChars_append, Nat.ofDigitChars_replicate_zero,
          Nat.mul_zero, made]
      have text : '0' :: '.' :: List.replicate (-n.point).toNat '0' ++ n.digits =
          ['0'] ++ '.' :: (List.replicate (-n.point).toNat '0' ++ n.digits) := rfl
      rw [if_neg inside, text, ← places]
      conv => arg 2; rw [← value]
      exact .pointed (List.cons_ne_nil _ _) (zeros 1)
        fun c held => (List.mem_append.1 held).elim (zeros _ c) (each c)

/-- The positional text of a positive decimal is read as it, within the limits of a word. -/
theorem read_positionalChars (negative : Bool)
    (low : -int64Bound ≤ n.exponent)
    (high : (reduce negative n.significand n.exponent).exponent < int64Bound) :
    readChars? (if negative then '-' :: n.positionalChars else n.positionalChars) =
      some (reduce negative n.significand n.exponent) := by
  have same : reduce negative (n.significand * 10 ^ n.exponent.toNat) (-(-n.exponent).toNat) =
      reduce negative n.significand n.exponent := by
    have exponent : -((-n.exponent).toNat : Int) + n.exponent.toNat = n.exponent := by omega
    rw [reduce_mul_pow, exponent]
  have bound : (0 : Int) ≤ int64Bound := by decide
  rw [← same] at high ⊢
  exact (positional_positionalChars positive).read negative (by omega) high

end Writing

/-! ## Doubles -/

/-- The decimal of a double other than zero is a reduced one that is nearest to the double. -/
theorem ofBinary64_readsBack {x : Binary64} (positive : 0 < x.rank) :
    ∃ significand exponent, 0 < significand ∧
      ofBinary64 x = reduce x.negative significand exponent ∧
      Binary64.nearestRankOfDecimal significand exponent = x.rank := by
  unfold ofBinary64
  by_cases whole : Binary64.isWhole x.rank = true
  · have units : Binary64.units x.rank / Binary64.unitsPerOne * Binary64.unitsPerOne =
        Binary64.units x.rank :=
      Nat.div_mul_cancel (Nat.dvd_of_mod_eq_zero (beq_iff_eq.1 whole))
    have back : Binary64.nearestRankOfDecimal
        (Binary64.units x.rank / Binary64.unitsPerOne) 0 = x.rank := by
      have split : (0 : Int) = (0 : Nat) - (0 : Nat) := rfl
      rw [Binary64.nearestRankOfDecimal_eq _ _ _ split, Nat.pow_zero, Nat.mul_one, units]
      exact Binary64.nearestRank_units x.rank
    refine ⟨Binary64.units x.rank / Binary64.unitsPerOne, 0, ?_, if_pos whole, back⟩
    apply Binary64.pos_of_nearestRankOfDecimal
    rw [back]
    exact positive
  · obtain ⟨significand, exponent, present, -, same, back⟩ :=
      Binary64.shortest_readsBack .up positive
    have kept := Binary64.nearestRankOfDecimal_reduce false exponent present
    refine ⟨_, _, ?_, if_neg whole, ?_⟩
    · rw [same, (reduce_parts false exponent present).2.1]
      exact dropZeros_pos present
    · rw [same, kept, back]

/-- Zero stands for zero. -/
theorem ofBinary64_of_rank {x : Binary64} (rank : x.rank = 0) : ofBinary64 x = zero := by
  rw [ofBinary64, rank, if_pos Binary64.isWhole_zero, Binary64.units_zero, Nat.zero_div]
  exact reduce_zero x.negative 0

/-- No double stands for a decimal near the upper limit on exponents. -/
theorem exponent_ofBinary64_lt (x : Binary64) : (ofBinary64 x).exponent < int64Bound := by
  by_cases rank : x.rank = 0
  · rw [ofBinary64_of_rank rank]
    decide
  · obtain ⟨significand, exponent, present, same, back⟩ :=
      ofBinary64_readsBack (Nat.pos_of_ne_zero rank)
    obtain ⟨-, kept, moved⟩ := reduce_parts x.negative exponent present
    have nearest := Binary64.nearestRankOfDecimal_reduce x.negative exponent present
    rw [kept, moved, back] at nearest
    have point := Binary64.point_le_of_rank (dropZeros_pos present) nearest
    rw [same, moved]
    unfold Binary64.digitBound at point
    unfold int64Bound
    omega

/-- Every finite double is read, as the decimal that it stands for. -/
@[simp]
theorem ofBinary64?_eq (x : Binary64) : ofBinary64? x = some (ofBinary64 x) := by
  have high := exponent_ofBinary64_lt x
  unfold ofBinary64? Binary64.positionalChars
  by_cases whole : Binary64.isWhole x.rank = true
  · -- the digits of the integer are a positional text without a point
    have text : Positional (Nat.toDigits 10 (Binary64.units x.rank / Binary64.unitsPerOne))
        (Binary64.units x.rank / Binary64.unitsPerOne) 0 := by
      have digits : ∀ c ∈ Nat.toDigits 10 (Binary64.units x.rank / Binary64.unitsPerOne),
          c.isDigit = true := fun c => Nat.isDigit_of_mem_toDigits (by decide) (by decide)
      have given := Positional.whole Nat.toDigits_ne_nil digits
      rwa [Nat.ofDigitChars_ten_toDigits] at given
    unfold ofBinary64 at high ⊢
    rw [if_pos whole] at high ⊢
    rw [if_pos whole]
    exact text.read x.negative (by decide) high
  · have positive : 0 < x.rank := by
      apply Nat.pos_of_ne_zero
      intro zero
      rw [zero] at whole
      exact whole Binary64.isWhole_zero
    obtain ⟨significand, exponent, present, low, same, -⟩ :=
      Binary64.shortest_readsBack .up positive
    obtain ⟨-, kept, moved⟩ := reduce_parts false exponent present
    rw [← same] at kept moved
    have near : -int64Bound ≤ (Binary64.shortest .up x.rank).exponent := by
      rw [moved]
      unfold int64Bound
      omega
    unfold ofBinary64 at high ⊢
    rw [if_neg whole] at high ⊢
    rw [if_neg whole]
    apply read_positionalChars _ x.negative near high
    rw [kept]
    exact dropZeros_pos present

/-- Every number of a document is read, as the decimal that it stands for. -/
@[simp]
theorem ofJson?_eq (known : Json.Number) : ofJson? known = some (ofJson known) := by
  cases known with
  | int value => rfl
  | float value => exact ofBinary64?_eq value

end TypedTree.Decimal
