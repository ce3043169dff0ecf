import TypedTree.Proofs.Decimal.Doubles

/-!
# Integers and whole doubles

A double stands for an integer exactly when it is whole: below `2 ^ 53` every integer is a double
itself, and from there on every double is whole, so nothing but a whole double is nearest to an
integer. Whether a number of a document goes out is therefore a matter of range alone. An integer or
a whole double goes out when it is within a word, and a double that is not whole always does.
-/

namespace TypedTree

namespace Binary64

/-- The integer that a whole double is; of any other double the part before the point. -/
def toInt (x : Binary64) : Int :=
  let magnitude : Int := (units x.rank / unitsPerOne : Nat)
  if x.negative then -magnitude else magnitude

/-- A double whose last bit counts at least one is whole. -/
theorem isWhole_of_scale {rank bits : Nat} (count : bits = 1074) (large : bits ≤ scale rank) :
    isWhole rank = true := by
  have divides : 2 ^ bits ∣ units rank :=
    Nat.dvd_mul_left_of_dvd (Nat.pow_dvd_pow 2 large) (significand rank)
  unfold isWhole
  rw [unitsPerOne_eq count, beq_iff_eq]
  exact Nat.mod_eq_zero_of_dvd divides

/-- The double that is nearest to an integer is whole. -/
theorem isWhole_nearestRank (magnitude : Nat) :
    isWhole (nearestRank (magnitude * unitsPerOne) 1) = true := by
  -- the number of bits is named, so that no power with it is ever computed
  obtain ⟨bits, count⟩ : ∃ bits, bits = 1074 := ⟨_, rfl⟩
  rw [unitsPerOne_eq count]
  by_cases zero : magnitude = 0
  · rw [zero, Nat.zero_mul, nearestRank_eq_zero (by decide)]
    exact isWhole_zero
  · have least : 2 ^ bits ≤ magnitude * 2 ^ bits :=
      Nat.le_mul_of_pos_left _ (Nat.pos_of_ne_zero zero)
    have present : magnitude * 2 ^ bits ≠ 0 :=
      Nat.ne_of_gt (Nat.lt_of_lt_of_le (Nat.pow_pos (by decide)) least)
    have many : bits ≤ (magnitude * 2 ^ bits).log2 := (Nat.le_log2 present).2 least
    obtain ⟨scale, split⟩ : ∃ scale, (magnitude * 2 ^ bits).log2 = 52 + scale :=
      Nat.exists_eq_add_of_le (by omega)
    have low : 2 ^ (52 + scale) ≤ magnitude * 2 ^ bits := split ▸ Nat.log2_self_le present
    have high : magnitude * 2 ^ bits < 2 ^ (53 + scale) :=
      (Nat.log2_lt present).1 (by omega)
    by_cases fine : scale ≤ bits
    · -- the integer is a double itself
      have folded : magnitude * 2 ^ (bits - scale) * 2 ^ scale = magnitude * 2 ^ bits := by
        rw [Nat.mul_assoc, ← Nat.pow_add, Nat.sub_add_cancel fine]
      rw [← folded, Nat.pow_add] at low high
      have full : binade ≤ magnitude * 2 ^ (bits - scale) :=
        Nat.le_of_mul_le_mul_right low (Nat.pow_pos (by decide))
      have short : magnitude * 2 ^ (bits - scale) < 2 * binade :=
        Nat.lt_of_mul_lt_mul_right high
      have units : units (scale * binade + magnitude * 2 ^ (bits - scale)) =
          magnitude * 2 ^ (bits - scale) * 2 ^ scale :=
        units_of_parts (.inr full) (Nat.le_of_lt short)
      rw [folded] at units
      rw [← units, nearestRank_units, isWhole, units, unitsPerOne_eq count, Nat.mul_mod_left]
      rfl
    · -- the integer has more bits than a double, so the last bit counts more than one
      have large : (scale + 1) * binade ≤ nearestRank (magnitude * 2 ^ bits) 1 :=
        le_nearestRank (by rwa [Nat.div_one])
      apply isWhole_of_scale count
      unfold Binary64.scale
      have quotient : scale + 1 ≤ nearestRank (magnitude * 2 ^ bits) 1 / binade :=
        (Nat.le_div_iff_mul_le (Nat.pow_pos (by decide))).2 large
      omega

end Binary64

namespace Decimal

/-- A whole double stands for the integer that it is. -/
theorem ofBinary64_of_isWhole {x : Binary64} (whole : Binary64.isWhole x.rank = true) :
    ofBinary64 x = ofInt x.toInt := by
  unfold ofBinary64 Binary64.toInt
  rw [if_pos whole]
  exact reduce_signed x.negative _

/-- A double that stands for an integer is whole. -/
theorem isWhole_of_isInteger {x : Binary64} (whole : (ofBinary64 x).isInteger = true) :
    Binary64.isWhole x.rank = true := by
  by_cases rank : x.rank = 0
  · rw [rank]
    exact Binary64.isWhole_zero
  · obtain ⟨significand, exponent, present, same, back⟩ :=
      ofBinary64_readsBack (Nat.pos_of_ne_zero rank)
    have nearest := Binary64.nearestRankOfDecimal_reduce x.negative exponent present
    rw [← same, back] at nearest
    -- the double is the one that is nearest to the integer for which it stands
    have nonneg : 0 ≤ (ofBinary64 x).exponent := of_decide_eq_true whole
    have split : (ofBinary64 x).exponent = (ofBinary64 x).exponent.toNat - (0 : Nat) := by omega
    rw [Binary64.nearestRankOfDecimal_eq _ _ _ split, Nat.pow_zero] at nearest
    rw [← nearest]
    exact Binary64.isWhole_nearestRank _

/-- An integer goes out when it is within a word. -/
theorem sendable_ofInt (value : Int) : (ofInt value).Sendable ↔ fitsInt64 value = true := by
  constructor
  · rintro (⟨other, fits, same⟩ | ⟨apart, _⟩)
    · rwa [ofInt_injective same]
    · exact absurd rfl (apart value)
  · intro fits
    exact .inl ⟨value, fits, rfl⟩

/-- A double goes out unless it is whole and not within a word. -/
theorem sendable_ofBinary64 (x : Binary64) :
    (ofBinary64 x).Sendable ↔
      (Binary64.isWhole x.rank = true → fitsInt64 x.toInt = true) := by
  by_cases whole : Binary64.isWhole x.rank = true
  · rw [ofBinary64_of_isWhole whole, sendable_ofInt]
    exact ⟨fun fits _ => fits, fun fits => fits whole⟩
  · refine ⟨fun _ own => absurd own whole, fun _ => .inr ⟨fun value same => ?_, x, rfl⟩⟩
    exact whole (isWhole_of_isInteger ((isInteger_iff _).2 ⟨value, same⟩))

end Decimal
end TypedTree
