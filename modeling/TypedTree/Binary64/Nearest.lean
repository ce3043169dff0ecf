import TypedTree.Binary64.Basic

/-!
# The nearest double

A decimal is read as the double of nearest magnitude, and of two equally near ones as the one of
even rank. The comparison is exact: numerator and denominator are natural numbers, and the only
division is the one whose remainder decides.
-/

namespace TypedTree.Binary64

/-- A quotient rounded to the nearest natural number, a half to the even neighbour. -/
def roundHalfEven (numerator denominator : Nat) : Nat :=
  let quotient := numerator / denominator
  let twice := 2 * (numerator % denominator)
  if twice < denominator then quotient
  else if denominator < twice then quotient + 1
  else quotient + quotient % 2

/--
The rank of the magnitude nearest to `numerator / denominator` units. The significand has 53 bits or
the scale is zero; a significand that rounds up to `2 ^ 53` carries into the rank by itself.
-/
def nearestRank (numerator denominator : Nat) : Nat :=
  let scale := (numerator / denominator).log2 - 52
  scale * binade + roundHalfEven numerator (denominator * Nat.pow 2 scale)

/-- The magnitude `significand * 10 ^ exponent` in units, as numerator and denominator. -/
def unitsOfDecimal (significand : Nat) (exponent : Int) : Nat × Nat :=
  if 0 ≤ exponent then (significand * Nat.pow 10 exponent.toNat * unitsPerOne, 1)
  else (significand * unitsPerOne, Nat.pow 10 (-exponent).toNat)

/-- The rank of the magnitude nearest to a decimal. -/
def nearestRankOfDecimal (significand : Nat) (exponent : Int) : Nat :=
  let (numerator, denominator) := unitsOfDecimal significand exponent
  nearestRank numerator denominator

/-- Beyond this many digits on either side of the point, no magnitude needs to be computed. -/
def digitBound : Int := 400

/--
The double nearest to `significand * 10 ^ exponent` with the given sign, if it is finite. A
magnitude far outside the range of doubles is settled by its number of digits.
-/
def nearest? (negative : Bool) (significand : Nat) (exponent : Int) : Option Binary64 :=
  if significand = 0 then some (zero negative)
  else
    let point := (Nat.toDigits 10 significand).length + exponent
    if digitBound < point then none
    else if point < -digitBound then some (zero negative)
    else
      let rank := nearestRankOfDecimal significand exponent
      if finite : rank < infiniteRank then some ⟨negative, rank, finite⟩ else none

end TypedTree.Binary64
