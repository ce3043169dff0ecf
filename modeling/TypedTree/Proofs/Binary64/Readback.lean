import Mathlib.Data.Nat.Digits.Defs
import Mathlib.Tactic.Ring
import TypedTree.Binary64.Shortest
import TypedTree.Proofs.Decimal.Reduction

/-!
# Decimals read back

The nearest rank of a decimal depends on its value alone, so zeros may be moved between significand
and exponent. The magnitude of a rank is nearest to itself, and every decimal that is written for a
rank, the shortest one as well as the exact one, reads back as that rank.
-/

namespace TypedTree.Binary64

/-- A common factor does not change a rounded quotient. -/
theorem roundHalfEven_mul {factor : Nat} (positive : 0 < factor) (numerator denominator : Nat) :
    roundHalfEven (factor * numerator) (factor * denominator) =
      roundHalfEven numerator denominator := by
  have twice : 2 * (factor * (numerator % denominator)) =
      factor * (2 * (numerator % denominator)) := by
    ring
  simp only [roundHalfEven, Nat.mul_div_mul_left _ _ positive, Nat.mul_mod_mul_left, twice,
    Nat.mul_lt_mul_left positive]

/-- A common factor does not change the nearest rank. -/
theorem nearestRank_mul {factor : Nat} (positive : 0 < factor) (numerator denominator : Nat) :
    nearestRank (factor * numerator) (factor * denominator) =
      nearestRank numerator denominator := by
  simp only [nearestRank, Nat.mul_div_mul_left _ _ positive, Nat.mul_assoc factor,
    roundHalfEven_mul positive]

/-- A decimal in units is its significand times powers of ten over powers of ten. -/
theorem nearestRankOfDecimal_eq (significand up down : Nat) {exponent : Int}
    (split : exponent = up - down) :
    nearestRankOfDecimal significand exponent =
      nearestRank (significand * 10 ^ up * unitsPerOne) (10 ^ down) := by
  unfold nearestRankOfDecimal unitsOfDecimal
  by_cases whole : 0 ≤ exponent
  · have larger : up = exponent.toNat + down := by omega
    have scaled : significand * 10 ^ up * unitsPerOne =
        10 ^ down * (significand * 10 ^ exponent.toNat * unitsPerOne) := by
      rw [larger, Nat.pow_add]
      ring
    rw [if_pos whole, scaled]
    have cancelled := nearestRank_mul (Nat.pow_pos (n := down) (by decide : 0 < 10))
      (significand * 10 ^ exponent.toNat * unitsPerOne) 1
    rw [Nat.mul_one] at cancelled
    exact cancelled.symm
  · have larger : down = up + (-exponent).toNat := by omega
    have scaled : significand * 10 ^ up * unitsPerOne = 10 ^ up * (significand * unitsPerOne) := by
      ring
    rw [if_neg whole, scaled, larger, Nat.pow_add]
    exact (nearestRank_mul (Nat.pow_pos (by decide)) _ _).symm

/-- Zeros may be moved from the significand to the exponent. -/
theorem nearestRankOfDecimal_shift (significand zeros : Nat) (exponent : Int) :
    nearestRankOfDecimal (significand * 10 ^ zeros) exponent =
      nearestRankOfDecimal significand (exponent + zeros) := by
  have own : exponent = exponent.toNat - (-exponent).toNat := by omega
  have moved : exponent + zeros = ((zeros + exponent.toNat : Nat) : Int) - (-exponent).toNat := by
    omega
  rw [nearestRankOfDecimal_eq _ _ _ own, nearestRankOfDecimal_eq _ _ _ moved, Nat.pow_add,
    Nat.mul_assoc significand]

/-- Reducing a positive decimal does not change its nearest rank. -/
theorem nearestRankOfDecimal_reduce (negative : Bool) {significand : Nat} (exponent : Int)
    (positive : 0 < significand) :
    nearestRankOfDecimal (Decimal.reduce negative significand exponent).significand
        (Decimal.reduce negative significand exponent).exponent =
      nearestRankOfDecimal significand exponent := by
  obtain ⟨-, kept, moved⟩ := Decimal.reduce_parts negative exponent positive
  rw [kept, moved, ← nearestRankOfDecimal_shift, Decimal.dropZeros_value]

/-! ## Magnitudes of ranks -/

theorem binade_eq : binade = 4503599627370496 := rfl

/-- A rank is made of its scale and its significand. -/
theorem scale_significand (rank : Nat) : scale rank * binade + significand rank = rank := by
  have small : scale rank * binade ≤ rank := by
    unfold scale
    rw [binade_eq]
    omega
  unfold significand
  omega

/-- A significand has at most 53 bits. -/
theorem significand_lt (rank : Nat) : significand rank < 2 * binade := by
  unfold significand scale
  rw [binade_eq]
  omega

/-- A significand has all of its 53 bits where it is scaled. -/
theorem le_significand {rank : Nat} (scaled : scale rank ≠ 0) : binade ≤ significand rank := by
  unfold significand scale at *
  rw [binade_eq] at *
  omega

/-- Zero has no magnitude. -/
theorem units_zero : units 0 = 0 := by
  unfold units significand
  rw [Nat.zero_sub, Nat.zero_mul]

/-- Zero is whole. -/
theorem isWhole_zero : isWhole 0 = true := by
  unfold isWhole
  rw [units_zero, Nat.zero_mod]
  rfl

/-- Only the rank zero has no magnitude. -/
theorem units_pos {rank : Nat} (positive : 0 < rank) : 0 < units rank := by
  have present : 0 < significand rank := by
    by_cases scaled : scale rank = 0
    · have parts := scale_significand rank
      rw [scaled] at parts
      omega
    · have full := le_significand scaled
      rw [binade_eq] at full
      omega
  exact Nat.mul_pos present (Nat.pow_pos (by decide))

/--
The magnitude of a significand at a scale: it has all of its 53 bits, or the scale is zero. A
significand of `2 ^ 53` counts as half of it at the next scale.
-/
theorem units_of_parts {scale significand : Nat} (full : scale = 0 ∨ binade ≤ significand)
    (short : significand ≤ 2 * binade) :
    units (scale * binade + significand) = significand * 2 ^ scale := by
  have rank := scale_significand (scale * binade + significand)
  unfold units
  rw [Nat.pow_eq]
  by_cases carried : significand = 2 * binade
  · have own : Binary64.scale (scale * binade + significand) = scale + 1 := by
      unfold Binary64.scale
      rw [binade_eq] at *
      omega
    have rest : Binary64.significand (scale * binade + significand) = binade := by
      rw [own, carried, Nat.succ_mul] at rank
      rw [carried]
      omega
    rw [own, rest, carried, Nat.pow_succ]
    ring
  · have own : Binary64.scale (scale * binade + significand) = scale := by
      unfold Binary64.scale
      rw [binade_eq] at *
      omega
    have rest : Binary64.significand (scale * binade + significand) = significand := by
      rw [own] at rank
      omega
    rw [own, rest]

/-- The scale of a rank is read off its magnitude. -/
theorem log2_units (rank : Nat) : (units rank).log2 - 52 = scale rank := by
  by_cases zero : rank = 0
  · subst zero
    decide
  · have present : units rank ≠ 0 := Nat.ne_of_gt (units_pos (Nat.pos_of_ne_zero zero))
    have above : (units rank).log2 < 53 + scale rank := by
      apply (Nat.log2_lt present).2
      rw [Nat.pow_add]
      exact Nat.mul_lt_mul_of_pos_right (significand_lt rank) (Nat.pow_pos (by decide))
    by_cases scaled : scale rank = 0
    · omega
    · have below : 52 + scale rank ≤ (units rank).log2 := by
        apply (Nat.le_log2 present).2
        rw [Nat.pow_add]
        exact Nat.mul_le_mul_right _ (le_significand scaled)
      omega

/-- A quotient without a remainder is not rounded. -/
theorem roundHalfEven_exact {denominator : Nat} (positive : 0 < denominator) (quotient : Nat) :
    roundHalfEven (quotient * denominator) denominator = quotient := by
  simp [roundHalfEven, Nat.mul_div_cancel _ positive, positive]

/-- The magnitude of a rank is nearest to itself. -/
theorem nearestRank_units (rank : Nat) : nearestRank (units rank) 1 = rank := by
  have rounded : roundHalfEven (units rank) (Nat.pow 2 (scale rank)) = significand rank :=
    roundHalfEven_exact (Nat.pow_pos (by decide)) _
  simp only [nearestRank, Nat.div_one, Nat.one_mul, log2_units, rounded, scale_significand]

/-! ## The bounds on the digits -/

/-- Rounding loses at most the fraction. -/
theorem le_roundHalfEven (numerator denominator : Nat) :
    numerator / denominator ≤ roundHalfEven numerator denominator := by
  simp only [roundHalfEven]
  split
  · exact Nat.le_refl _
  · split <;> omega

/-- A magnitude with more bits than a significand has a rank of at least that many scales. -/
theorem le_nearestRank {numerator denominator scale : Nat}
    (large : 2 ^ (52 + scale) ≤ numerator / denominator) :
    (scale + 1) * binade ≤ nearestRank numerator denominator := by
  have present : numerator / denominator ≠ 0 :=
    Nat.ne_of_gt (Nat.lt_of_lt_of_le (Nat.pow_pos (by decide)) large)
  have bits : 52 + scale ≤ (numerator / denominator).log2 := (Nat.le_log2 present).2 large
  obtain ⟨own, split⟩ : ∃ own, (numerator / denominator).log2 = 52 + own :=
    Nat.exists_eq_add_of_le (by omega)
  have leading : binade * 2 ^ own ≤ numerator / denominator := by
    have power := Nat.log2_self_le present
    rwa [split, Nat.pow_add] at power
  have rounded : binade ≤ roundHalfEven numerator (denominator * Nat.pow 2 own) := by
    refine Nat.le_trans ?_ (le_roundHalfEven _ _)
    rw [← Nat.div_div_eq_div_mul]
    exact (Nat.le_div_iff_mul_le (Nat.pow_pos (by decide))).2 leading
  have scaled : (numerator / denominator).log2 - 52 = own := by omega
  have many : scale * binade ≤ own * binade := Nat.mul_le_mul_right _ (by omega)
  rw [Nat.succ_mul]
  simp only [nearestRank, scaled]
  omega

/-- A magnitude below half a unit is nearest to zero. -/
theorem nearestRank_eq_zero {numerator denominator : Nat} (small : 2 * numerator < denominator) :
    nearestRank numerator denominator = 0 := by
  have below : numerator < denominator := by omega
  simp [nearestRank, roundHalfEven, Nat.div_eq_of_lt below, Nat.mod_eq_of_lt below, small]

theorem unitsPerOne_eq {bits : Nat} (count : bits = 1074) : unitsPerOne = 2 ^ bits := by
  unfold unitsPerOne
  rw [← count, Nat.pow_eq]

/-- A third as many decimal digits hold what binary digits hold. -/
theorem two_pow_le_ten_pow {bits digits : Nat} (enough : bits ≤ 3 * digits) :
    2 ^ bits ≤ 10 ^ digits :=
  calc
    2 ^ bits ≤ 2 ^ (3 * digits) := Nat.pow_le_pow_right (by decide) enough
    _ = 8 ^ digits := by rw [Nat.pow_mul]
    _ ≤ 10 ^ digits := Nat.pow_le_pow_left (by decide) _

/-- A number is less than the power of ten that its number of digits says. -/
theorem lt_pow_length_digits (number : Nat) : number < 10 ^ (Nat.toDigits 10 number).length :=
  (Nat.length_toDigits_le_iff (by decide) Nat.length_toDigits_pos).1 (Nat.le_refl _)

/-- A number has at least the value that its number of digits says. -/
theorem le_of_length_digits {significand count : Nat} (positive : 0 < significand)
    (long : count < (Nat.toDigits 10 significand).length) : 10 ^ count ≤ significand := by
  by_cases one : count = 0
  · subst one
    exact positive
  · apply Nat.le_of_not_lt
    intro less
    have short := (Nat.length_toDigits_le_iff (by decide : 1 < 10) (by omega)).2 less
    omega

/-- A decimal whose point stands far behind its first digit has a rank of many scales. -/
theorem le_nearestRankOfDecimal (digits scale : Nat) {significand : Nat} {exponent : Int}
    (positive : 0 < significand) (far : digits < (Nat.toDigits 10 significand).length + exponent)
    (enough : 52 + scale ≤ 3 * digits + 1074) (scaled : 1074 ≤ 52 + scale) :
    (scale + 1) * binade ≤ nearestRankOfDecimal significand exponent := by
  have split : exponent = exponent.toNat - (-exponent).toNat := by omega
  rw [nearestRankOfDecimal_eq _ _ _ split]
  apply le_nearestRank
  apply (Nat.le_div_iff_mul_le (Nat.pow_pos (by decide))).2
  have leading : 10 ^ ((Nat.toDigits 10 significand).length - 1) ≤ significand :=
    le_of_length_digits positive (Nat.sub_lt Nat.length_toDigits_pos (by decide))
  have value : 10 ^ (digits + (-exponent).toNat) ≤ significand * 10 ^ exponent.toNat := by
    refine Nat.le_trans (Nat.pow_le_pow_right (by decide) ?_)
      (Nat.le_trans (Nat.le_of_eq (Nat.pow_add _ _ _)) (Nat.mul_le_mul_right _ leading))
    omega
  -- the exponent is named, so that no power with it is ever computed
  obtain ⟨bits, count⟩ : ∃ bits, bits = 1074 := ⟨_, rfl⟩
  obtain ⟨extra, parts⟩ : ∃ extra, 52 + scale = extra + bits := ⟨52 + scale - bits, by omega⟩
  calc
    2 ^ (52 + scale) * 10 ^ (-exponent).toNat =
        2 ^ extra * 10 ^ (-exponent).toNat * unitsPerOne := by
      rw [parts, Nat.pow_add, ← unitsPerOne_eq count]
      exact Nat.mul_right_comm _ _ _
    _ ≤ 10 ^ digits * 10 ^ (-exponent).toNat * unitsPerOne :=
      Nat.mul_le_mul_right _ (Nat.mul_le_mul_right _ (two_pow_le_ten_pow (by omega)))
    _ ≤ significand * 10 ^ exponent.toNat * unitsPerOne := by
      rw [← Nat.pow_add]
      exact Nat.mul_le_mul_right _ value

/-- A decimal whose first digit stands far behind its point is nearest to zero. -/
theorem nearestRankOfDecimal_eq_zero (digits : Nat) {significand : Nat} {exponent : Int}
    (far : (Nat.toDigits 10 significand).length + exponent < -digits)
    (enough : 1075 ≤ 3 * digits) : nearestRankOfDecimal significand exponent = 0 := by
  have split : exponent = (0 : Nat) - (-exponent).toNat := by omega
  rw [nearestRankOfDecimal_eq _ _ _ split]
  apply nearestRank_eq_zero
  have below := lt_pow_length_digits significand
  have half : 2 * unitsPerOne ≤ 10 ^ digits := by
    obtain ⟨bits, count⟩ : ∃ bits, bits = 1074 := ⟨_, rfl⟩
    rw [unitsPerOne_eq count, ← Nat.pow_succ']
    exact two_pow_le_ten_pow (by omega)
  calc
    2 * (significand * 10 ^ 0 * unitsPerOne) = significand * (2 * unitsPerOne) := by ring
    _ ≤ significand * 10 ^ digits := Nat.mul_le_mul_left _ half
    _ < 10 ^ (Nat.toDigits 10 significand).length * 10 ^ digits :=
      Nat.mul_lt_mul_of_pos_right below (Nat.pow_pos (by decide))
    _ ≤ 10 ^ (-exponent).toNat := by
      rw [← Nat.pow_add]
      exact Nat.pow_le_pow_right (by decide) (by omega)

/-- The point of a decimal that is nearest to a finite magnitude is near its first digit. -/
theorem point_le_of_rank {significand : Nat} {exponent : Int} (positive : 0 < significand)
    {x : Binary64} (nearest : nearestRankOfDecimal significand exponent = x.rank) :
    (Nat.toDigits 10 significand).length + exponent ≤ digitBound := by
  have finite := x.finite
  apply Int.not_lt.1
  intro far
  have past : infiniteRank ≤ nearestRankOfDecimal significand exponent :=
    le_nearestRankOfDecimal 400 2046 positive far (by decide) (by decide)
  omega

/-- The bounds on the digits change nothing: the nearest double is the one of nearest rank. -/
theorem nearest?_of_rank {significand : Nat} {exponent : Int} (positive : 0 < significand)
    {x : Binary64} (nearest : nearestRankOfDecimal significand exponent = x.rank) :
    nearest? x.negative significand exponent = some x := by
  have present : significand ≠ 0 := Nat.ne_of_gt positive
  have near : ¬ digitBound < (Nat.toDigits 10 significand).length + exponent :=
    Int.not_lt.2 (point_le_of_rank positive nearest)
  simp only [nearest?, if_neg present, if_neg near]
  split
  · rename_i far
    have none := nearestRankOfDecimal_eq_zero 400 far (by decide)
    have rank : x.rank = 0 := by omega
    rw [zero]
    simp [← rank]
  · simp [nearest, x.finite]

/-- Every zero that is appended to the digits of a number is one more digit. -/
theorem length_toDigits_mul_pow {significand : Nat} (positive : 0 < significand) (zeros : Nat) :
    (Nat.toDigits 10 (significand * 10 ^ zeros)).length =
      (Nat.toDigits 10 significand).length + zeros := by
  induction zeros with
  | zero => rw [Nat.pow_zero, Nat.mul_one, Nat.add_zero]
  | succ zeros ih =>
    have present : 0 < significand * 10 ^ zeros := Nat.mul_pos positive (Nat.pow_pos (by decide))
    have shifted : significand * 10 ^ (zeros + 1) = significand * 10 ^ zeros * 10 := by
      rw [Nat.pow_succ, Nat.mul_assoc]
    have long : 10 ≤ significand * 10 ^ zeros * 10 := by omega
    rw [shifted, Nat.toDigits_of_base_le (by decide) long, Nat.mul_div_cancel _ (by decide),
      List.length_append, ih]
    rfl

/-- Zeros may be moved from the significand to the exponent before the nearest double is found. -/
theorem nearest?_shift (negative : Bool) (significand zeros : Nat) (exponent : Int) :
    nearest? negative (significand * 10 ^ zeros) exponent =
      nearest? negative significand (exponent + zeros) := by
  by_cases zero : significand = 0
  · simp [nearest?, zero]
  · have positive : 0 < significand := Nat.pos_of_ne_zero zero
    have present : significand * 10 ^ zeros ≠ 0 :=
      Nat.ne_of_gt (Nat.mul_pos positive (Nat.pow_pos (by decide)))
    have point : ((Nat.toDigits 10 (significand * 10 ^ zeros)).length : Int) + exponent =
        (Nat.toDigits 10 significand).length + (exponent + zeros) := by
      rw [length_toDigits_mul_pow positive]
      omega
    simp only [nearest?, if_neg zero, if_neg present, point, nearestRankOfDecimal_shift]

/-! ## Shortest decimals -/

/-- A grid point that is taken reads back as the rank. -/
theorem gridPoint?_readsBack {tie : Tie} {rank significand : Nat} {exponent : Int}
    (taken : gridPoint? tie rank exponent = some significand) :
    nearestRankOfDecimal significand exponent = rank := by
  unfold gridPoint? at taken
  have same := List.find?_some taken
  rwa [beq_iff_eq] at same

/-- The exact decimal of a magnitude reads back as its rank. -/
theorem exactDecimal_readsBack (rank : Nat) :
    nearestRankOfDecimal (exactDecimal rank).1 (exactDecimal rank).2 = rank := by
  -- the exponent is named, so that no power with it is ever computed
  obtain ⟨bits, count⟩ : ∃ bits, bits = 1074 := ⟨_, rfl⟩
  have parts : exactDecimal rank = (units rank * 5 ^ bits, -(bits : Int)) := by
    have point : (-1074 : Int) = -(bits : Int) := by omega
    unfold exactDecimal
    rw [point, ← count, Nat.pow_eq]
  have split : (-(bits : Int)) = (0 : Nat) - (bits : Nat) := by omega
  have folded : units rank * 5 ^ bits * 10 ^ 0 * 2 ^ bits = 10 ^ bits * units rank := by
    rw [Nat.pow_zero, Nat.mul_one, Nat.mul_assoc, ← Nat.mul_pow, Nat.mul_comm]
  rw [parts, nearestRankOfDecimal_eq _ _ _ split, unitsPerOne_eq count, folded]
  calc
    nearestRank (10 ^ bits * units rank) (10 ^ bits) =
        nearestRank (10 ^ bits * units rank) (10 ^ bits * 1) := by rw [Nat.mul_one]
    _ = nearestRank (units rank) 1 := nearestRank_mul (Nat.pow_pos (by decide)) _ _
    _ = rank := nearestRank_units rank

/-- Zero digits are nearest to zero. -/
theorem nearestRankOfDecimal_zero (exponent : Int) : nearestRankOfDecimal 0 exponent = 0 := by
  have split : exponent = exponent.toNat - (-exponent).toNat := by omega
  rw [nearestRankOfDecimal_eq _ _ _ split, Nat.zero_mul, Nat.zero_mul]
  exact nearestRank_eq_zero (Nat.pow_pos (by decide))

/-- A decimal that is nearest to a positive rank is positive. -/
theorem pos_of_nearestRankOfDecimal {significand : Nat} {exponent : Int}
    (positive : 0 < nearestRankOfDecimal significand exponent) : 0 < significand := by
  apply Nat.pos_of_ne_zero
  rintro rfl
  rw [nearestRankOfDecimal_zero] at positive
  exact Nat.lt_irrefl 0 positive

/-- The nearest double has the sign of the decimal and the rank that is nearest to it. -/
theorem nearest?_eq_some_iff {negative : Bool} {significand : Nat} {exponent : Int} {x : Binary64} :
    nearest? negative significand exponent = some x ↔
      x.negative = negative ∧ nearestRankOfDecimal significand exponent = x.rank := by
  constructor
  · intro found
    by_cases none : significand = 0
    · rw [nearest?, if_pos none] at found
      obtain rfl := Option.some.inj found
      exact ⟨rfl, none ▸ nearestRankOfDecimal_zero exponent⟩
    · simp only [nearest?, if_neg none, Option.ite_none_left_eq_some] at found
      obtain ⟨-, found⟩ := found
      split at found
      · rename_i far
        obtain rfl := Option.some.inj found
        exact ⟨rfl, nearestRankOfDecimal_eq_zero 400 far (by decide)⟩
      · split at found
        · obtain rfl := Option.some.inj found
          exact ⟨rfl, rfl⟩
        · cases found
  · rintro ⟨rfl, nearest⟩
    by_cases none : significand = 0
    · obtain ⟨negative, rank, finite⟩ := x
      rw [none, nearestRankOfDecimal_zero] at nearest
      obtain rfl : 0 = rank := nearest
      exact if_pos none
    · exact nearest?_of_rank (Nat.pos_of_ne_zero none) nearest

/-- No magnitude has its first digit far behind its point. -/
theorem leadingPoint_ge (rank : Nat) : -400 ≤ leadingPoint rank := by
  unfold leadingPoint
  generalize Nat.toDigits 10 (units rank * Nat.pow 10 400 / unitsPerOne) = digits
  omega

/--
The shortest decimal of a positive magnitude is reduced from one that reads back as it and whose
last digit stands no further behind the point than that of the least magnitude.
-/
theorem shortest_readsBack (tie : Tie) {rank : Nat} (positive : 0 < rank) :
    ∃ significand exponent, 0 < significand ∧ -1074 ≤ exponent ∧
      shortest tie rank = Decimal.reduce false significand exponent ∧
      nearestRankOfDecimal significand exponent = rank := by
  have present : rank ≠ 0 := Nat.ne_of_gt positive
  have leading := leadingPoint_ge rank
  unfold shortest
  rw [if_neg present]
  generalize leadingPoint rank = point at leading
  cases found : (List.range' 1 17).findSome? fun (count : Nat) =>
      (gridPoint? tie rank (point - count)).map fun significand => (significand, point - count) with
  | none =>
    have back := exactDecimal_readsBack rank
    refine ⟨(exactDecimal rank).1, (exactDecimal rank).2, ?_, Int.le_refl _, ?_, back⟩
    · apply pos_of_nearestRankOfDecimal
      rw [back]
      exact positive
    · simp only [found, Option.getD_none]
  | some decimal =>
    obtain ⟨count, within, taken⟩ := List.exists_of_findSome?_eq_some found
    obtain ⟨significand, here, rfl⟩ := Option.map_eq_some_iff.1 taken
    have back := gridPoint?_readsBack here
    have few : count < 18 := (List.mem_range'_1.1 within).2
    refine ⟨significand, point - count, ?_, by omega, ?_, back⟩
    · apply pos_of_nearestRankOfDecimal
      rw [back]
      exact positive
    · simp only [found, Option.getD_some]

end TypedTree.Binary64
