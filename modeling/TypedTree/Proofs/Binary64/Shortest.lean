import Mathlib.Tactic.LinearCombination
import TypedTree.Proofs.Binary64.Nearest

/-!
# Shortest decimals

The search for the shortest decimal asks one grid of decimals after the other, and on each of them
only the two neighbours of the magnitude. That is enough: what is read as a rank is an interval
around its magnitude, so a decimal of some number of digits that is read as the rank has a neighbour
of the magnitude on the grid of that number of digits that is read as it, too, and is no further
away. A grid of seventeen digits always has such a neighbour.
-/

namespace TypedTree.Binary64

/-- The magnitude of a rank as a rational number. -/
def magnitude (rank : Nat) : ℚ := units rank / unitsPerOne

/-- The rational number that a finite double denotes. -/
def value (x : Binary64) : ℚ := signed x.negative (magnitude x.rank)

/-- A positive number that is read as a rank: the rank is nearest to it. -/
def ReadAs (rank : Nat) (number : ℚ) : Prop := Nearest rank (number * unitsPerOne)

variable {rank : Nat} {exponent : Int}

theorem cast_unitsPerOne_pos : (0 : ℚ) < unitsPerOne := by exact_mod_cast unitsPerOne_pos

theorem magnitude_mul_unitsPerOne (rank : Nat) : magnitude rank * unitsPerOne = units rank :=
  div_mul_cancel₀ _ (ne_of_gt cast_unitsPerOne_pos)

namespace ReadAs

/-- The magnitude of a rank is read as the rank. -/
theorem magnitude (rank : Nat) : ReadAs rank (magnitude rank) := by
  unfold ReadAs
  rw [magnitude_mul_unitsPerOne]
  exact Nearest.self rank

/-- What lies between two numbers that are read as a rank is read as it. -/
theorem of_between {low number high : ℚ} (first : ReadAs rank low) (last : ReadAs rank high)
    (after : low ≤ number) (before : number ≤ high) : ReadAs rank number :=
  Nearest.of_between first last (mul_le_mul_of_nonneg_right after cast_unitsPerOne_pos.le)
    (mul_le_mul_of_nonneg_right before cast_unitsPerOne_pos.le)

/-- What lies between the magnitude and a number that is read as its rank is no further away. -/
theorem inwards {number other : ℚ} (read : ReadAs rank number)
    (between : (Binary64.magnitude rank ≤ other ∧ other ≤ number) ∨
      (number ≤ other ∧ other ≤ Binary64.magnitude rank)) :
    ReadAs rank other ∧
      |other - Binary64.magnitude rank| ≤ |number - Binary64.magnitude rank| := by
  rcases between with ⟨after, before⟩ | ⟨after, before⟩
  · refine ⟨(ReadAs.magnitude rank).of_between read after before, ?_⟩
    rw [abs_of_nonneg (sub_nonneg.2 after), abs_of_nonneg (sub_nonneg.2 (after.trans before))]
    linarith only [before]
  · refine ⟨read.of_between (ReadAs.magnitude rank) after before, ?_⟩
    rw [abs_of_nonpos (sub_nonpos.2 before), abs_of_nonpos (sub_nonpos.2 (after.trans before))]
    linarith only [after]

end ReadAs

/-- A decimal is nearest to a rank exactly when it is read as it. -/
theorem readAs_iff (significand : Nat) (exponent : Int) (rank : Nat) :
    nearestRankOfDecimal significand exponent = rank ↔
      ReadAs rank (significand * 10 ^ exponent) :=
  nearestRankOfDecimal_eq_iff significand exponent rank

/-! ## The neighbours on a grid -/

/-- The magnitude of a rank is counted on the grid of a power of ten by an exact quotient. -/
theorem gridQuotient_eq (rank : Nat) (exponent : Int) :
    0 < (gridQuotient rank exponent).2 ∧
      ((gridQuotient rank exponent).1 : ℚ) =
        magnitude rank / 10 ^ exponent * (gridQuotient rank exponent).2 := by
  have unit := magnitude_mul_unitsPerOne rank
  have power := (Decimal.ten_zpow_pos exponent).ne'
  have one := unitsPerOne_pos
  unfold gridQuotient
  generalize unitsPerOne = units at unit one ⊢
  by_cases whole : 0 ≤ exponent
  · rw [if_pos whole]
    refine ⟨Nat.mul_pos one (Nat.pow_pos (by decide)), ?_⟩
    have same : ((Nat.pow 10 exponent.toNat : Nat) : ℚ) = 10 ^ exponent := by
      conv_rhs => rw [← Int.toNat_of_nonneg whole, zpow_natCast]
      exact Nat.cast_pow 10 _
    rw [Nat.cast_mul, same, ← unit]
    field_simp
  · rw [if_neg whole]
    refine ⟨one, ?_⟩
    have same : ((Nat.pow 10 (-exponent).toNat : Nat) : ℚ) = (10 ^ exponent)⁻¹ := by
      have nonneg : 0 ≤ -exponent := by omega
      rw [← zpow_neg, ← Int.toNat_of_nonneg nonneg, zpow_natCast, Int.toNat_natCast]
      exact Nat.cast_pow 10 _
    rw [Nat.cast_mul, same, ← unit]
    field_simp

/-- The grid point just below the magnitude. -/
def lowPoint (rank : Nat) (exponent : Int) : Nat :=
  (gridQuotient rank exponent).1 / (gridQuotient rank exponent).2

/-- The grid point next to the magnitude. -/
def nearPoint (tie : Tie) (rank : Nat) (exponent : Int) : Nat :=
  nearer tie (lowPoint rank exponent)
    ((gridQuotient rank exponent).1 % (gridQuotient rank exponent).2)
    (gridQuotient rank exponent).2

/-- A number on the grid. -/
def onGrid (point : Nat) (exponent : Int) : ℚ := point * 10 ^ exponent

theorem onGrid_le {a b : Nat} (ordered : a ≤ b) (exponent : Int) :
    onGrid a exponent ≤ onGrid b exponent :=
  mul_le_mul_of_nonneg_right (by exact_mod_cast ordered) (Decimal.ten_zpow_pos exponent).le

theorem onGrid_succ (point : Nat) (exponent : Int) :
    onGrid (point + 1) exponent = onGrid point exponent + 10 ^ exponent := by
  unfold onGrid
  push_cast
  ring

/-- Zeros may be moved from the point to its grid. -/
theorem onGrid_mul_pow (point zeros : Nat) (exponent : Int) :
    onGrid (point * 10 ^ zeros) exponent = onGrid point (exponent + zeros) := by
  unfold onGrid
  rw [Decimal.ten_zpow_add, zpow_natCast]
  push_cast
  ring

/-- The remainder says how far the grid point just below is from the magnitude. -/
theorem onGrid_lowPoint (rank : Nat) (exponent : Int) :
    (magnitude rank - onGrid (lowPoint rank exponent) exponent) *
        (gridQuotient rank exponent).2 =
      ((gridQuotient rank exponent).1 % (gridQuotient rank exponent).2 : Nat) * 10 ^ exponent := by
  obtain ⟨-, quotient⟩ := gridQuotient_eq rank exponent
  have split : ((gridQuotient rank exponent).1 : ℚ) =
      (gridQuotient rank exponent).2 * lowPoint rank exponent +
        ((gridQuotient rank exponent).1 % (gridQuotient rank exponent).2 : Nat) := by
    exact_mod_cast (Nat.div_add_mod _ _).symm
  have power := (Decimal.ten_zpow_pos exponent).ne'
  rw [quotient] at split
  have scaled := congrArg (· * (10 : ℚ) ^ exponent) split
  simp only [div_mul_eq_mul_div, div_mul_cancel₀ _ power] at scaled
  unfold onGrid
  linear_combination scaled

/-- The magnitude lies between its neighbours on the grid. -/
theorem lowPoint_bounds (rank : Nat) (exponent : Int) :
    onGrid (lowPoint rank exponent) exponent ≤ magnitude rank ∧
      magnitude rank < onGrid (lowPoint rank exponent + 1) exponent := by
  obtain ⟨positive, -⟩ := gridQuotient_eq rank exponent
  have cast : (0 : ℚ) < (gridQuotient rank exponent).2 := by exact_mod_cast positive
  have power := Decimal.ten_zpow_pos exponent
  have apart := onGrid_lowPoint rank exponent
  have small : (((gridQuotient rank exponent).1 % (gridQuotient rank exponent).2 : Nat) : ℚ) <
      (gridQuotient rank exponent).2 := by
    exact_mod_cast Nat.mod_lt _ positive
  rw [onGrid_succ]
  constructor
  · apply sub_nonneg.1
    apply nonneg_of_mul_nonneg_left _ cast
    rw [apart]
    positivity
  · have product : (magnitude rank - onGrid (lowPoint rank exponent) exponent) *
        (gridQuotient rank exponent).2 < 10 ^ exponent * (gridQuotient rank exponent).2 := by
      rw [apart, mul_comm]
      exact mul_lt_mul_of_pos_left small power
    linarith only [lt_of_mul_lt_mul_right product cast.le]

/-- The nearer of two neighbours is chosen by the remainder. -/
theorem nearer_cases (tie : Tie) (low remainder denominator : Nat) :
    (nearer tie low remainder denominator = low ∧ 2 * remainder ≤ denominator) ∨
    (nearer tie low remainder denominator = low + 1 ∧ denominator ≤ 2 * remainder) := by
  unfold nearer
  by_cases less : 2 * remainder < denominator
  · rw [if_pos less]
    exact .inl ⟨rfl, Nat.le_of_lt less⟩
  · by_cases more : denominator < 2 * remainder
    · rw [if_neg less, if_pos more]
      exact .inr ⟨rfl, Nat.le_of_lt more⟩
    · rw [if_neg less, if_neg more]
      cases tie with
      | up => exact .inr ⟨rfl, Nat.le_of_not_lt less⟩
      | even =>
        rcases Nat.mod_two_eq_zero_or_one low with even | odd
        · exact .inl ⟨by rw [even, Nat.add_zero], Nat.le_of_not_lt more⟩
        · exact .inr ⟨by rw [odd], Nat.le_of_not_lt less⟩

/-- The grid point next to the magnitude is a neighbour, and at most half a step away. -/
theorem nearPoint_cases (tie : Tie) (rank : Nat) (exponent : Int) :
    (nearPoint tie rank exponent = lowPoint rank exponent ∧
      2 * (magnitude rank - onGrid (lowPoint rank exponent) exponent) ≤ 10 ^ exponent) ∨
    (nearPoint tie rank exponent = lowPoint rank exponent + 1 ∧
      10 ^ exponent ≤ 2 * (magnitude rank - onGrid (lowPoint rank exponent) exponent)) := by
  obtain ⟨positive, -⟩ := gridQuotient_eq rank exponent
  have cast : (0 : ℚ) < (gridQuotient rank exponent).2 := by exact_mod_cast positive
  have power := Decimal.ten_zpow_pos exponent
  have apart := onGrid_lowPoint rank exponent
  rcases nearer_cases tie (lowPoint rank exponent)
      ((gridQuotient rank exponent).1 % (gridQuotient rank exponent).2)
      (gridQuotient rank exponent).2 with ⟨same, half⟩ | ⟨same, half⟩
  · refine .inl ⟨same, le_of_mul_le_mul_right ?_ cast⟩
    have given : (2 * ((gridQuotient rank exponent).1 % (gridQuotient rank exponent).2 : Nat) : ℚ) ≤
        (gridQuotient rank exponent).2 := by
      exact_mod_cast half
    linarith only [mul_le_mul_of_nonneg_right given power.le, apart]
  · refine .inr ⟨same, le_of_mul_le_mul_right ?_ cast⟩
    have given : ((gridQuotient rank exponent).2 : ℚ) ≤
        2 * ((gridQuotient rank exponent).1 % (gridQuotient rank exponent).2 : Nat) := by
      exact_mod_cast half
    linarith only [mul_le_mul_of_nonneg_right given power.le, apart]

/-- No point of the grid is closer to the magnitude than the one next to it. -/
theorem abs_nearPoint_le (tie : Tie) (rank : Nat) (exponent : Int) (point : Nat) :
    |onGrid (nearPoint tie rank exponent) exponent - magnitude rank| ≤
      |onGrid point exponent - magnitude rank| := by
  obtain ⟨low, high⟩ := lowPoint_bounds rank exponent
  have step := onGrid_succ (lowPoint rank exponent) exponent
  by_cases before : point ≤ lowPoint rank exponent
  · have ordered := onGrid_le before exponent
    rw [abs_of_nonpos (sub_nonpos.2 (ordered.trans low))]
    rcases nearPoint_cases tie rank exponent with ⟨same, half⟩ | ⟨same, half⟩
    · rw [same, abs_of_nonpos (sub_nonpos.2 low)]
      linarith only [ordered]
    · rw [same, abs_of_nonneg (sub_nonneg.2 high.le)]
      linarith only [ordered, step, half]
  · have ordered := onGrid_le (Nat.succ_le_of_lt (Nat.lt_of_not_le before)) exponent
    rw [abs_of_nonneg (sub_nonneg.2 (high.le.trans ordered))]
    rcases nearPoint_cases tie rank exponent with ⟨same, half⟩ | ⟨same, half⟩
    · rw [same, abs_of_nonpos (sub_nonpos.2 low)]
      linarith only [ordered, step, half]
    · rw [same, abs_of_nonneg (sub_nonneg.2 high.le)]
      linarith only [ordered]

/-- The grid point next to the magnitude is at most half a step away. -/
theorem abs_nearPoint_le_half (tie : Tie) (rank : Nat) (exponent : Int) :
    2 * |onGrid (nearPoint tie rank exponent) exponent - magnitude rank| ≤ 10 ^ exponent := by
  obtain ⟨low, high⟩ := lowPoint_bounds rank exponent
  have step := onGrid_succ (lowPoint rank exponent) exponent
  rcases nearPoint_cases tie rank exponent with ⟨same, half⟩ | ⟨same, half⟩
  · rw [same, abs_of_nonpos (sub_nonpos.2 low)]
    linarith only [half]
  · rw [same, abs_of_nonneg (sub_nonneg.2 high.le)]
    linarith only [step, half]

/-! ## The search on one grid -/

/-- Whether a point of the grid is read as a rank. -/
def isReadAs (rank : Nat) (exponent : Int) (point : Nat) : Bool :=
  nearestRankOfDecimal point exponent == rank

theorem isReadAs_iff (rank : Nat) (exponent : Int) (point : Nat) :
    isReadAs rank exponent point = true ↔ ReadAs rank (onGrid point exponent) := by
  unfold isReadAs
  rw [beq_iff_eq]
  exact readAs_iff point exponent rank

/-- The search asks the next point first and then both neighbours. -/
theorem gridPoint?_eq (tie : Tie) (rank : Nat) (exponent : Int) :
    gridPoint? tie rank exponent =
      [nearPoint tie rank exponent, lowPoint rank exponent, lowPoint rank exponent + 1].find?
        (isReadAs rank exponent) :=
  rfl

/-- What the search takes is one of the neighbours. -/
theorem le_of_gridPoint? {tie : Tie} {point : Nat}
    (taken : gridPoint? tie rank exponent = some point) : point ≤ lowPoint rank exponent + 1 := by
  have held := List.mem_of_find?_eq_some taken
  simp only [List.mem_cons, List.not_mem_nil, or_false] at held
  change point = nearPoint tie rank exponent ∨ point = lowPoint rank exponent ∨
    point = lowPoint rank exponent + 1 at held
  have near := nearPoint_cases tie rank exponent
  omega

/--
If any point of the grid is read as the rank, the search takes one, and no point that is read as the
rank is closer to the magnitude.
-/
theorem exists_gridPoint (tie : Tie) {point : Nat} (read : ReadAs rank (onGrid point exponent)) :
    ∃ taken, gridPoint? tie rank exponent = some taken ∧
      |onGrid taken exponent - magnitude rank| ≤ |onGrid point exponent - magnitude rank| := by
  obtain ⟨low, high⟩ := lowPoint_bounds rank exponent
  have below : point ≤ lowPoint rank exponent →
      ReadAs rank (onGrid (lowPoint rank exponent) exponent) ∧
        |onGrid (lowPoint rank exponent) exponent - magnitude rank| ≤
          |onGrid point exponent - magnitude rank| :=
    fun before => read.inwards (.inr ⟨onGrid_le before exponent, low⟩)
  have above : lowPoint rank exponent + 1 ≤ point →
      ReadAs rank (onGrid (lowPoint rank exponent + 1) exponent) ∧
        |onGrid (lowPoint rank exponent + 1) exponent - magnitude rank| ≤
          |onGrid point exponent - magnitude rank| :=
    fun after => read.inwards (.inl ⟨high.le, onGrid_le after exponent⟩)
  have asked := isReadAs_iff rank exponent
  rw [gridPoint?_eq]
  by_cases next : ReadAs rank (onGrid (nearPoint tie rank exponent) exponent)
  · exact ⟨_, List.find?_cons_of_pos ((asked _).2 next),
      abs_nearPoint_le tie rank exponent point⟩
  · -- the closer neighbour is not read as the rank, so the point lies on the other side
    have first : ¬ isReadAs rank exponent (nearPoint tie rank exponent) = true :=
      fun own => next ((asked _).1 own)
    rw [List.find?_cons_of_neg first]
    rcases nearPoint_cases tie rank exponent with ⟨same, -⟩ | ⟨same, -⟩
    · rw [same] at next first
      have after : lowPoint rank exponent + 1 ≤ point := by
        by_contra before
        exact next (below (by omega)).1
      rw [List.find?_cons_of_neg first]
      exact ⟨_, List.find?_cons_of_pos ((asked _).2 (above after).1), (above after).2⟩
    · rw [same] at next
      have before : point ≤ lowPoint rank exponent := by
        by_contra after
        exact next (above (by omega)).1
      exact ⟨_, List.find?_cons_of_pos ((asked _).2 (below before).1), (below before).2⟩

/-! ## The position of the point -/

/-- The first digit of a positive magnitude stands just before the leading point. -/
theorem leadingPoint_bounds (positive : 0 < rank) :
    (10 : ℚ) ^ (leadingPoint rank - 1) ≤ magnitude rank ∧
      magnitude rank < 10 ^ leadingPoint rank := by
  -- the numbers of digits and bits are named, so that no power with them is ever computed
  obtain ⟨places, count⟩ : ∃ places, places = 400 := ⟨_, rfl⟩
  obtain ⟨bits, size⟩ : ∃ bits, bits = 1074 := ⟨_, rfl⟩
  have point : leadingPoint rank =
      (Nat.toDigits 10 (units rank * 10 ^ places / unitsPerOne)).length - (places : Int) := by
    have same : (400 : Int) = places := by omega
    unfold leadingPoint
    rw [same, ← count, Nat.pow_eq]
  have unit := magnitude_mul_unitsPerOne rank
  have cast := cast_unitsPerOne_pos
  have one := unitsPerOne_pos
  have power : unitsPerOne ≤ 10 ^ places := by
    rw [unitsPerOne_eq size]
    exact two_pow_le_ten_pow (by omega)
  have magnitudes := units_pos positive
  rw [point]
  generalize magnitude rank = magnitude at *
  generalize units rank = units at *
  generalize unitsPerOne = denominator at *
  have large : denominator ≤ units * 10 ^ places :=
    Nat.le_trans power (Nat.le_mul_of_pos_left _ magnitudes)
  have present : 0 < units * 10 ^ places / denominator := Nat.div_pos large one
  have first := le_of_length_digits present (Nat.sub_lt Nat.length_toDigits_pos Nat.one_pos)
  have last := lt_pow_length_digits (units * 10 ^ places / denominator)
  have some : 0 < (Nat.toDigits 10 (units * 10 ^ places / denominator)).length :=
    Nat.length_toDigits_pos
  rw [Nat.le_div_iff_mul_le one] at first
  rw [Nat.div_lt_iff_lt_mul one] at last
  generalize (Nat.toDigits 10 (units * 10 ^ places / denominator)).length = length at *
  have scale : (0 : ℚ) < 10 ^ places * denominator := by positivity
  have scaled : magnitude * (10 ^ places * denominator) = units * 10 ^ places := by
    linear_combination (10 : ℚ) ^ places * unit
  constructor
  · have exponent : (length : Int) - places - 1 = ((length - 1 : Nat) : Int) - places := by omega
    apply le_of_mul_le_mul_right _ scale
    rw [scaled, exponent, ← mul_assoc, Decimal.ten_zpow_sub_mul, zpow_natCast]
    exact_mod_cast first
  · apply lt_of_mul_lt_mul_right _ scale.le
    rw [scaled, ← mul_assoc, Decimal.ten_zpow_sub_mul, zpow_natCast]
    exact_mod_cast last

/-! ## Decimals of some number of digits -/

/--
A decimal that is read as a rank has a point on the grid of its number of digits that is read as it,
too, and is no further away from the magnitude: itself, or the least number with the leading point
of the magnitude.
-/
theorem exists_onGrid (positive : 0 < rank) {significand : Nat}
    (read : ReadAs rank (onGrid significand exponent)) :
    ∃ point, ReadAs rank
        (onGrid point (leadingPoint rank - (Nat.toDigits 10 significand).length)) ∧
      |onGrid point (leadingPoint rank - (Nat.toDigits 10 significand).length) - magnitude rank| ≤
        |onGrid significand exponent - magnitude rank| := by
  have below := lt_pow_length_digits significand
  have some : 0 < (Nat.toDigits 10 significand).length := Nat.length_toDigits_pos
  generalize (Nat.toDigits 10 significand).length = count at *
  by_cases fine : leadingPoint rank - count ≤ exponent
  · -- the decimal lies on the grid itself
    obtain ⟨zeros, split⟩ : ∃ zeros : Nat, exponent = leadingPoint rank - count + zeros :=
      ⟨(exponent - (leadingPoint rank - count)).toNat, by omega⟩
    rw [split, ← onGrid_mul_pow] at read ⊢
    exact ⟨_, read, le_refl _⟩
  · -- the decimal is smaller than the least number with the leading point
    have least : onGrid (1 * 10 ^ (count - 1)) (leadingPoint rank - count) =
        10 ^ (leadingPoint rank - 1) := by
      have exponents : leadingPoint rank - count + (count - 1 : Nat) = leadingPoint rank - 1 := by
        omega
      rw [onGrid_mul_pow, exponents, onGrid, Nat.cast_one, one_mul]
    have small : onGrid significand exponent ≤ 10 ^ (leadingPoint rank - 1) :=
      calc
        onGrid significand exponent ≤ onGrid (1 * 10 ^ count) exponent :=
          onGrid_le (by omega) exponent
        _ = 10 ^ (exponent + count) := by rw [onGrid_mul_pow, onGrid, Nat.cast_one, one_mul]
        _ ≤ 10 ^ (leadingPoint rank - 1) := zpow_le_zpow_right₀ (by norm_num) (by omega)
    refine ⟨1 * 10 ^ (count - 1), read.inwards (.inr ?_)⟩
    rw [least]
    exact ⟨small, (leadingPoint_bounds positive).1⟩

/-- Steps of seventeen digits are smaller than the steps between the ranks. -/
theorem onGrid_step_lt (positive : 0 < rank) :
    (10 : ℚ) ^ (leadingPoint rank - 17) * unitsPerOne < 2 ^ scale (rank - 1) := by
  have first := (leadingPoint_bounds positive).1
  have unit := magnitude_mul_unitsPerOne rank
  have cast := cast_unitsPerOne_pos
  -- a magnitude has at most 53 bits in steps of the rank before it
  have bits : units rank ≤ 2 ^ 53 * 2 ^ scale (rank - 1) := by
    have next : units rank = (significand (rank - 1) + 1) * 2 ^ scale (rank - 1) := by
      rw [units_of_pos positive, Nat.succ_mul]
      rfl
    rw [next]
    exact Nat.mul_le_mul_right _ (significand_lt (rank - 1))
  have bound : (units rank : ℚ) ≤ 2 ^ 53 * 2 ^ scale (rank - 1) := by exact_mod_cast bits
  have digits : (10 : ℚ) ^ (leadingPoint rank - 17) * 10 ^ 16 = 10 ^ (leadingPoint rank - 1) := by
    have exponents : leadingPoint rank - 17 = leadingPoint rank - 1 - (16 : Nat) := by omega
    rw [exponents, Decimal.ten_zpow_sub_mul]
  have product : (10 : ℚ) ^ (leadingPoint rank - 17) * unitsPerOne * 10 ^ 16 ≤
      2 ^ 53 * 2 ^ scale (rank - 1) := by
    calc
      (10 : ℚ) ^ (leadingPoint rank - 17) * unitsPerOne * 10 ^ 16 =
          10 ^ (leadingPoint rank - 1) * unitsPerOne := by
        rw [← digits]
        ring
      _ ≤ magnitude rank * unitsPerOne := mul_le_mul_of_nonneg_right first cast.le
      _ ≤ 2 ^ 53 * 2 ^ scale (rank - 1) := by rwa [unit]
  have step : (0 : ℚ) < 2 ^ scale (rank - 1) := by positivity
  linarith only [product, step]

/-- A grid of seventeen digits has a point that is read as the rank. -/
theorem readAs_seventeen (tie : Tie) (positive : 0 < rank) :
    ReadAs rank
      (onGrid (nearPoint tie rank (leadingPoint rank - 17)) (leadingPoint rank - 17)) := by
  have half := abs_nearPoint_le_half tie rank (leadingPoint rank - 17)
  have small := onGrid_step_lt positive
  have unit := magnitude_mul_unitsPerOne rank
  have cast := cast_unitsPerOne_pos
  have before : (units rank : ℚ) = units (rank - 1) + 2 ^ scale (rank - 1) := by
    exact_mod_cast units_of_pos positive
  have after : (units rank + 2 ^ scale (rank - 1) : ℚ) ≤ units (rank + 1) := by
    have coarser : 2 ^ scale (rank - 1) ≤ 2 ^ scale rank :=
      Nat.pow_le_pow_right (by decide) (scale_mono (Nat.sub_le rank 1))
    have next := units_succ rank
    have given : units rank + 2 ^ scale (rank - 1) ≤ units (rank + 1) := by omega
    exact_mod_cast given
  generalize onGrid (nearPoint tie rank (leadingPoint rank - 17)) (leadingPoint rank - 17) =
    number at *
  obtain ⟨low, high⟩ := abs_le.1 (le_of_mul_le_mul_left
    (half.trans_eq (mul_div_cancel₀ _ two_ne_zero).symm) two_pos)
  have lower := mul_le_mul_of_nonneg_right low cast.le
  have upper := mul_le_mul_of_nonneg_right high cast.le
  rw [sub_mul, unit] at lower upper
  refine ⟨?_, ?_, fun _ => ⟨?_, ?_⟩⟩
  · linarith only [lower, small, before]
  · linarith only [upper, small, after]
  · apply ne_of_lt
    linarith only [lower, small, before]
  · apply ne_of_lt
    linarith only [upper, small, after]

/-! ## The search over all grids -/

/--
The search stops at the first grid that has a neighbour which is read as the rank, at the latest at
that of seventeen digits.
-/
theorem exists_first_grid (tie : Tie) (positive : 0 < rank) :
    ∃ count point : Nat, 0 < count ∧
      gridPoint? tie rank (leadingPoint rank - count) = some point ∧
      (∀ fewer : Nat, 0 < fewer → fewer < count →
        gridPoint? tie rank (leadingPoint rank - fewer) = none) ∧
      shortest tie rank = Decimal.reduce false point (leadingPoint rank - count) := by
  obtain ⟨last, taken, -⟩ := exists_gridPoint tie (readAs_seventeen tie positive)
  unfold shortest
  rw [if_neg (Nat.ne_of_gt positive)]
  generalize leadingPoint rank = leading at taken
  cases found : (List.range' 1 17).findSome? fun (count : Nat) =>
      (gridPoint? tie rank (leading - count)).map fun significand =>
        (significand, leading - count) with
  | none =>
    have missed := List.findSome?_eq_none_iff.1 found 17 (by decide)
    rw [Option.map_eq_none_iff] at missed
    exact absurd taken (missed ▸ Option.some_ne_none last).symm
  | some decimal =>
    obtain ⟨before, count, after, split, here, missed⟩ := List.findSome?_eq_some_iff.1 found
    obtain ⟨fewer, -, rfl, behind⟩ := List.range'_eq_append_iff.1 split
    obtain ⟨rfl, -⟩ := List.range'_eq_cons_iff.1 behind.symm
    obtain ⟨point, own, rfl⟩ := Option.map_eq_some_iff.1 here
    rw [Nat.mul_one] at found own
    refine ⟨1 + fewer, point, Nat.add_pos_left Nat.one_pos fewer, own, ?_, ?_⟩
    · intro other some less
      have within : other ∈ List.range' 1 fewer := List.mem_range'_1.2 ⟨some, less⟩
      exact Option.map_eq_none_iff.1 (missed other within)
    · simp only [found, Option.getD_some]

/-- What the search takes from the grid of some number of digits has at most that many digits. -/
theorem gridPoint?_le_pow {tie : Tie} {count point : Nat}
    (positive : 0 < rank) (taken : gridPoint? tie rank (leadingPoint rank - count) = some point) :
    point ≤ 10 ^ count := by
  have low := (lowPoint_bounds rank (leadingPoint rank - count)).1
  have high := (leadingPoint_bounds positive).2
  have product : (lowPoint rank (leadingPoint rank - count) : ℚ) *
      10 ^ (leadingPoint rank - count) < 10 ^ count * 10 ^ (leadingPoint rank - count) := by
    rw [mul_comm (10 ^ count : ℚ), Decimal.ten_zpow_sub_mul]
    exact lt_of_le_of_lt low high
  have below : lowPoint rank (leadingPoint rank - count) < 10 ^ count := by
    exact_mod_cast lt_of_mul_lt_mul_right product (Decimal.ten_zpow_pos _).le
  have next := le_of_gridPoint? taken
  omega

/--
The shortest decimal of a positive rank is read as it. No decimal that is read as it has fewer
digits, and none of as many digits is closer to the magnitude.
-/
theorem shortest_spec (tie : Tie) (positive : 0 < rank) :
    (shortest tie rank).negative = false ∧
    ReadAs rank (shortest tie rank).value ∧
    ∀ significand exponent, ReadAs rank (onGrid significand exponent) →
      (shortest tie rank).digits.length ≤ (Nat.toDigits 10 significand).length ∧
      ((Nat.toDigits 10 significand).length = (shortest tie rank).digits.length →
        |(shortest tie rank).value - magnitude rank| ≤
          |onGrid significand exponent - magnitude rank|) := by
  obtain ⟨count, point, some, taken, missed, same⟩ := exists_first_grid tie positive
  have back := gridPoint?_readsBack taken
  have present : 0 < point := pos_of_nearestRankOfDecimal (back.symm ▸ positive)
  have value : (shortest tie rank).value = onGrid point (leadingPoint rank - count) := by
    rw [same, Decimal.value_reduce]
    rfl
  have short : (shortest tie rank).digits.length ≤ count := by
    rw [same]
    exact Decimal.length_digits_reduce_le false _ present some (gridPoint?_le_pow positive taken)
  have sign : (shortest tie rank).negative = false := by
    rw [same]
    exact (Decimal.reduce_parts false _ present).1
  refine ⟨sign, value ▸ (readAs_iff _ _ _).1 back, fun significand exponent read => ?_⟩
  have digits : 0 < (Nat.toDigits 10 significand).length := Nat.length_toDigits_pos
  obtain ⟨own, held, nearer⟩ := exists_onGrid positive read
  obtain ⟨other, also, closest⟩ := exists_gridPoint tie held
  have enough : count ≤ (Nat.toDigits 10 significand).length := by
    by_contra fewer
    rw [missed _ digits (Nat.lt_of_not_le fewer)] at also
    cases also
  refine ⟨Nat.le_trans short enough, fun equal => ?_⟩
  -- the decimal has as many digits as the grid that the search stops at
  have grid : (Nat.toDigits 10 significand).length = count := by omega
  rw [grid, taken] at also
  rw [grid] at nearer closest
  obtain rfl := Option.some.inj also
  rw [value]
  exact closest.trans nearer

end TypedTree.Binary64
