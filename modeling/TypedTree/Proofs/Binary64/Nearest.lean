import TypedTree.Proofs.Decimal.Value

/-!
# The magnitudes that a rank is nearest to

The magnitudes of ranks grow with the ranks, by steps that double from one scale to the next. The
magnitudes to which a rank is nearest are those between the midpoints to its two neighbours, and a
midpoint belongs to the even one of them. They are therefore an interval, and the nearest rank of a
magnitude is the only one in whose interval the magnitude lies.
-/

namespace TypedTree.Binary64

/-! ## Magnitudes in units -/

/-- The next rank is larger by one unit of the scale. -/
theorem units_succ (rank : Nat) : units (rank + 1) = units rank + 2 ^ scale rank := by
  have split : rank + 1 = scale rank * binade + (significand rank + 1) := by
    have parts := scale_significand rank
    omega
  have full : scale rank = 0 ∨ binade ≤ significand rank + 1 := by
    by_cases scaled : scale rank = 0
    · exact .inl scaled
    · exact .inr (Nat.le_succ_of_le (le_significand scaled))
  calc
    units (rank + 1) = units (scale rank * binade + (significand rank + 1)) := by rw [← split]
    _ = (significand rank + 1) * 2 ^ scale rank := units_of_parts full (significand_lt rank)
    _ = units rank + 2 ^ scale rank := by
      rw [Nat.succ_mul]
      rfl

/-- A rank is larger than the one before it by one unit of the scale of that one. -/
theorem units_of_pos {rank : Nat} (positive : 0 < rank) :
    units rank = units (rank - 1) + 2 ^ scale (rank - 1) := by
  have next := units_succ (rank - 1)
  rwa [Nat.sub_add_cancel positive] at next

/-- Larger ranks have larger magnitudes. -/
theorem units_strictMono : StrictMono units := by
  apply strictMono_nat_of_lt_succ
  intro rank
  rw [units_succ]
  exact Nat.lt_add_of_pos_right (Nat.pow_pos (by decide))

/-- A rank at or past the first one of a scale has at least that scale. -/
theorem le_scale {rank scale : Nat} (large : (scale + 1) * binade ≤ rank) :
    scale ≤ Binary64.scale rank := by
  have quotient : scale + 1 ≤ rank / binade :=
    (Nat.le_div_iff_mul_le (Nat.pow_pos (by decide))).2 large
  unfold Binary64.scale
  omega

/-- Larger ranks have no smaller scales. -/
theorem scale_mono {rank other : Nat} (ordered : rank ≤ other) : scale rank ≤ scale other := by
  have quotient : rank / binade ≤ other / binade := Nat.div_le_div_right ordered
  unfold scale
  omega

/-! ## Rounded quotients -/

/-- A rounded quotient is off by at most a half, and by a half only if it is even. -/
theorem roundHalfEven_bounds (numerator : Nat) {denominator : Nat} (positive : 0 < denominator) :
    2 * numerator ≤ 2 * (roundHalfEven numerator denominator * denominator) + denominator ∧
    2 * (roundHalfEven numerator denominator * denominator) ≤ 2 * numerator + denominator ∧
    (roundHalfEven numerator denominator % 2 ≠ 0 →
      2 * numerator ≠ 2 * (roundHalfEven numerator denominator * denominator) + denominator ∧
      2 * (roundHalfEven numerator denominator * denominator) ≠ 2 * numerator + denominator) := by
  have split := Nat.div_add_mod numerator denominator
  have small := Nat.mod_lt numerator positive
  rw [Nat.mul_comm] at split
  unfold roundHalfEven
  generalize numerator / denominator = quotient at *
  generalize numerator % denominator = remainder at *
  by_cases low : 2 * remainder < denominator
  · simp only [if_pos low]
    omega
  · by_cases high : denominator < 2 * remainder
    · simp only [if_neg low, if_pos high, Nat.add_mul, Nat.one_mul]
      omega
    · simp only [if_neg low, if_neg high]
      -- an exact half goes to the even neighbour
      rcases Nat.mod_two_eq_zero_or_one quotient with even | odd
      · simp only [even, Nat.add_zero]
        omega
      · simp only [odd, Nat.add_mul, Nat.one_mul]
        omega

/-- Rounding adds at most one. -/
theorem roundHalfEven_le (numerator denominator : Nat) :
    roundHalfEven numerator denominator ≤ numerator / denominator + 1 := by
  simp only [roundHalfEven]
  split
  · omega
  · split <;> omega

/-! ## The interval of a rank -/

/--
A magnitude, in units, between the midpoints to the neighbours of a rank. Midpoints belong to even
ranks only.
-/
structure Nearest (rank : Nat) (magnitude : ℚ) : Prop where
  below : (units (rank - 1) + units rank : ℚ) ≤ 2 * magnitude
  above : 2 * magnitude ≤ (units rank + units (rank + 1) : ℚ)
  tie : rank % 2 ≠ 0 → (units (rank - 1) + units rank : ℚ) ≠ 2 * magnitude ∧
    2 * magnitude ≠ (units rank + units (rank + 1) : ℚ)

namespace Nearest

variable {rank other : Nat} {magnitude low high : ℚ}

/-- A rank is nearest to its own magnitude. -/
theorem self (rank : Nat) : Nearest rank (units rank) := by
  have above : (units rank : ℚ) < units (rank + 1) := by
    exact_mod_cast units_strictMono (Nat.lt_succ_self rank)
  have below : (units (rank - 1) : ℚ) ≤ units rank := by
    exact_mod_cast units_strictMono.monotone (Nat.sub_le rank 1)
  refine ⟨by linarith only [below], by linarith only [above], fun odd => ?_⟩
  have before : (units (rank - 1) : ℚ) < units rank := by
    exact_mod_cast units_strictMono (Nat.sub_lt (by omega) Nat.one_pos)
  constructor
  · linarith only [before]
  · linarith only [above]

/-- What lies between two magnitudes of the interval lies in it. -/
theorem of_between (first : Nearest rank low) (last : Nearest rank high) (after : low ≤ magnitude)
    (before : magnitude ≤ high) : Nearest rank magnitude := by
  refine ⟨by linarith only [first.below, after], by linarith only [last.above, before],
    fun odd => ⟨fun same => ?_, fun same => ?_⟩⟩
  · apply (first.tie odd).1
    linarith only [first.below, after, same]
  · apply (last.tie odd).2
    linarith only [last.above, before, same]

/-- No magnitude lies in the intervals of two ranks. -/
theorem not_lt (own : Nearest rank magnitude) (also : Nearest other magnitude) :
    ¬ rank < other := by
  intro less
  have above := own.above
  have below := also.below
  by_cases next : rank + 1 = other
  · -- the midpoint of neighbours belongs to one of them only
    subst next
    rw [Nat.add_sub_cancel] at below
    by_cases odd : rank % 2 = 0
    · apply (also.tie (by omega)).1
      rw [Nat.add_sub_cancel]
      exact le_antisymm below above
    · exact (own.tie odd).2 (le_antisymm above below)
  · have first : (units (rank + 1) : ℚ) ≤ units (other - 1) := by
      exact_mod_cast units_strictMono.monotone (show rank + 1 ≤ other - 1 by omega)
    have second : (units rank : ℚ) < units other := by exact_mod_cast units_strictMono less
    linarith only [above, below, first, second]

theorem unique (own : Nearest rank magnitude) (also : Nearest other magnitude) : rank = other := by
  have left := own.not_lt also
  have right := also.not_lt own
  omega

end Nearest

/-! ## Nearest ranks -/

/-- The scale and the significand of the nearest rank. -/
theorem nearestRank_parts (numerator denominator : Nat) :
    ∃ scale significand, nearestRank numerator denominator = scale * binade + significand ∧
      significand = roundHalfEven numerator (denominator * 2 ^ scale) ∧
      significand ≤ 2 * binade ∧ (scale = 0 ∨ binade ≤ numerator / (denominator * 2 ^ scale)) := by
  refine ⟨(numerator / denominator).log2 - 52, _, rfl, rfl, ?_, ?_⟩
  · -- a quotient of at most 53 bits is rounded up at most to the next power of two
    generalize scaled : (numerator / denominator).log2 - 52 = scale
    have short : numerator / denominator < 2 ^ (53 + scale) := by
      apply Nat.lt_of_lt_of_le Nat.lt_log2_self
      exact Nat.pow_le_pow_right (by decide) (by omega)
    have quotient : numerator / (denominator * 2 ^ scale) < 2 * binade := by
      rw [← Nat.div_div_eq_div_mul]
      apply Nat.div_lt_of_lt_mul
      have power : 2 ^ scale * (2 * binade) = 2 ^ (53 + scale) := by
        rw [Nat.pow_add, Nat.mul_comm]
        rfl
      omega
    exact Nat.le_trans (roundHalfEven_le _ _) quotient
  · generalize scaled : (numerator / denominator).log2 - 52 = scale
    by_cases zero : scale = 0
    · exact .inl zero
    · right
      have present : numerator / denominator ≠ 0 := by
        intro none
        rw [none] at scaled
        exact zero scaled.symm
      have long : 2 ^ (52 + scale) ≤ numerator / denominator :=
        (Nat.le_log2 present).1 (by omega)
      rw [← Nat.div_div_eq_div_mul]
      apply (Nat.le_div_iff_mul_le (Nat.pow_pos (by decide))).2
      rwa [Nat.pow_add] at long

/-- The bounds on a rounded quotient, in units of the scale to which it is rounded. -/
theorem rounded_bounds (numerator : Nat) {denominator step rounded : Nat}
    (positive : 0 < denominator) (fine : 0 < step)
    (same : rounded = roundHalfEven numerator (denominator * step)) :
    2 * (numerator / denominator : ℚ) ≤ 2 * (rounded * step : Nat) + step ∧
    (2 * (rounded * step : Nat) : ℚ) ≤ 2 * (numerator / denominator) + step ∧
    (rounded % 2 ≠ 0 → 2 * (numerator / denominator : ℚ) ≠ 2 * (rounded * step : Nat) + step ∧
      (2 * (rounded * step : Nat) : ℚ) ≠ 2 * (numerator / denominator) + step) := by
  obtain ⟨above, below, tie⟩ := roundHalfEven_bounds numerator (Nat.mul_pos positive fine)
  rw [← same] at above below tie
  have cast : (0 : ℚ) < denominator := by exact_mod_cast positive
  -- both sides of a comparison are multiplied by the denominator
  have left : 2 * (numerator / denominator : ℚ) * denominator = (2 * numerator : Nat) := by
    push_cast
    field_simp
  have right : (2 * (rounded * step : Nat) : ℚ) * denominator =
      (2 * (rounded * (denominator * step)) : Nat) := by
    push_cast
    ring
  have half : (step : ℚ) * denominator = (denominator * step : Nat) := by
    push_cast
    ring
  refine ⟨?_, ?_, fun odd => ⟨fun equal => ?_, fun equal => ?_⟩⟩
  · apply le_of_mul_le_mul_right _ cast
    rw [add_mul, left, right, half]
    exact_mod_cast above
  · apply le_of_mul_le_mul_right _ cast
    rw [add_mul, left, right, half]
    exact_mod_cast below
  · apply (tie odd).1
    have product := congrArg (· * (denominator : ℚ)) equal
    simp only [add_mul, left, right, half] at product
    exact_mod_cast product
  · apply (tie odd).2
    have product := congrArg (· * (denominator : ℚ)) equal
    simp only [add_mul, left, right, half] at product
    exact_mod_cast product

/-- The rank after one is larger by at least one unit of the scale. -/
theorem units_add_le {scale significand : Nat} (full : scale = 0 ∨ binade ≤ significand) :
    units (scale * binade + significand) + 2 ^ scale ≤
      units (scale * binade + significand + 1) := by
  have large : scale ≤ Binary64.scale (scale * binade + significand) := by
    rcases full with zero | many
    · omega
    · apply le_scale
      rw [Nat.succ_mul]
      omega
  rw [units_succ]
  exact Nat.add_le_add_left (Nat.pow_le_pow_right (by decide) large) _

/-- The rank before one is as far away, unless the significand is the least one of its scale. -/
theorem units_sub_add_le {scale significand : Nat} (full : scale = 0 ∨ binade ≤ significand)
    (inner : ¬ (scale ≠ 0 ∧ significand = binade)) :
    scale * binade + significand = 0 ∨
      units (scale * binade + significand - 1) + 2 ^ scale ≤
        units (scale * binade + significand) := by
  by_cases zero : significand = 0
  · left
    have unscaled : scale = 0 := by
      apply full.resolve_right
      rw [zero, binade_eq]
      decide
    rw [unscaled, zero, Nat.zero_mul]
  · right
    have more : scale = 0 ∨ binade ≤ significand - 1 := by
      by_cases unscaled : scale = 0
      · exact .inl unscaled
      · right
        have many : binade ≤ significand := full.resolve_left unscaled
        have other : binade ≠ significand := fun same => inner ⟨unscaled, same.symm⟩
        exact Nat.le_sub_one_of_lt (Nat.lt_of_le_of_ne many other)
    have rank : scale * binade + significand = scale * binade + (significand - 1) + 1 := by
      rw [Nat.add_assoc, Nat.sub_add_cancel (Nat.pos_of_ne_zero zero)]
    rw [rank, Nat.add_sub_cancel]
    exact units_add_le more

namespace Nearest

variable {rank step : Nat} {magnitude : ℚ}
  (upper : 2 * magnitude ≤ 2 * (units rank : ℚ) + step)
  (above : units rank + step ≤ units (rank + 1))
include upper above

/-- A rank that is rounded to at a scale is nearest if its neighbours are as far apart. -/
theorem of_rounded (nonneg : 0 ≤ magnitude) (lower : 2 * (units rank : ℚ) ≤ 2 * magnitude + step)
    (tie : rank % 2 ≠ 0 → 2 * magnitude ≠ 2 * (units rank : ℚ) + step ∧
      2 * (units rank : ℚ) ≠ 2 * magnitude + step)
    (below : rank = 0 ∨ units (rank - 1) + step ≤ units rank) : Nearest rank magnitude := by
  have next : (units rank + step : ℚ) ≤ units (rank + 1) := by exact_mod_cast above
  rcases below with rfl | before
  · have least : (units 0 : ℚ) = 0 := by exact_mod_cast units_zero
    refine ⟨?_, by linarith only [upper, next], fun odd => absurd rfl odd⟩
    rw [Nat.zero_sub, least]
    linarith only [nonneg]
  · have previous : (units (rank - 1) + step : ℚ) ≤ units rank := by exact_mod_cast before
    refine ⟨by linarith only [lower, previous], by linarith only [upper, next], fun odd => ?_⟩
    obtain ⟨first, second⟩ := tie odd
    constructor
    · intro same
      apply second
      linarith only [lower, previous, same]
    · intro same
      apply first
      linarith only [upper, next, same]

/-- An even rank that is rounded down to is nearest, however close the rank before it is. -/
theorem of_floor (even : rank % 2 = 0) (floor : (units rank : ℚ) ≤ magnitude) :
    Nearest rank magnitude := by
  have next : (units rank + step : ℚ) ≤ units (rank + 1) := by exact_mod_cast above
  have before : (units (rank - 1) : ℚ) ≤ units rank := by
    exact_mod_cast units_strictMono.monotone (Nat.sub_le rank 1)
  exact ⟨by linarith only [floor, before], by linarith only [upper, next],
    fun odd => absurd even odd⟩

end Nearest

/-- The nearest rank is nearest to the quotient. -/
theorem nearest_nearestRank (numerator : Nat) {denominator : Nat} (positive : 0 < denominator) :
    Nearest (nearestRank numerator denominator) (numerator / denominator) := by
  obtain ⟨scale, significand, split, rounded, short, full⟩ :=
    nearestRank_parts numerator denominator
  have step : 0 < 2 ^ scale := Nat.pow_pos (by decide)
  obtain ⟨upper, lower, tie⟩ := rounded_bounds numerator positive step rounded
  have least : scale = 0 ∨ binade ≤ significand := by
    apply full.imp_right
    intro large
    rw [rounded]
    exact Nat.le_trans large (le_roundHalfEven _ _)
  have parity : (scale * binade + significand) % 2 = significand % 2 := by
    rw [binade_eq]
    omega
  have own := units_of_parts least short
  have above := units_add_le least
  rw [← own] at upper lower tie
  rw [← parity] at tie
  rw [split]
  -- below the least significand of a scale the ranks are closer together
  by_cases edge : scale ≠ 0 ∧ significand = binade
  · apply Nearest.of_floor upper above
    · rw [parity, edge.2]
      rfl
    · have leading : significand ≤ numerator / (denominator * 2 ^ scale) := by
        rw [edge.2]
        exact full.resolve_left edge.1
      have product : significand * (denominator * 2 ^ scale) ≤ numerator :=
        (Nat.le_div_iff_mul_le (Nat.mul_pos positive step)).1 leading
      have cast : (0 : ℚ) < denominator := by exact_mod_cast positive
      rw [le_div_iff₀ cast, own]
      rw [Nat.mul_left_comm, Nat.mul_comm] at product
      exact_mod_cast product
  · exact Nearest.of_rounded upper above (by positivity) lower tie (units_sub_add_le least edge)

/-- The nearest rank is the only one in whose interval the quotient lies. -/
theorem nearestRank_eq_iff (numerator : Nat) {denominator rank : Nat} (positive : 0 < denominator) :
    nearestRank numerator denominator = rank ↔ Nearest rank (numerator / denominator) := by
  have nearest := nearest_nearestRank numerator positive
  constructor
  · rintro rfl
    exact nearest
  · exact nearest.unique

theorem unitsPerOne_pos : 0 < unitsPerOne := by
  obtain ⟨bits, count⟩ : ∃ bits, bits = 1074 := ⟨_, rfl⟩
  rw [unitsPerOne_eq count]
  exact Nat.pow_pos (by decide)

/-- The rank nearest to a decimal is the one in whose interval the decimal lies. -/
theorem nearestRankOfDecimal_eq_iff (significand : Nat) (exponent : Int) (rank : Nat) :
    nearestRankOfDecimal significand exponent = rank ↔
      Nearest rank (significand * 10 ^ exponent * unitsPerOne) := by
  have split : exponent = exponent.toNat - (-exponent).toNat := by omega
  have power : (10 : ℚ) ^ exponent = 10 ^ exponent.toNat / 10 ^ (-exponent).toNat := by
    conv_lhs => rw [split, zpow_sub₀ (by norm_num), zpow_natCast, zpow_natCast]
  have quotient : ((significand * 10 ^ exponent.toNat * unitsPerOne : Nat) : ℚ) /
      (10 ^ (-exponent).toNat : Nat) = significand * 10 ^ exponent * unitsPerOne := by
    rw [power]
    push_cast
    ring
  rw [nearestRankOfDecimal_eq _ _ _ split, nearestRank_eq_iff _ (Nat.pow_pos (by decide)), quotient]

end TypedTree.Binary64
