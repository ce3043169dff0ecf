import TypedTree.Binary64.Nearest
import TypedTree.Json.Basic

/-!
# Number literals

A literal without fraction and exponent is an integer if a 64-bit word holds it, minus zero
excepted. Every other literal is a double, found in few operations on doubles: its digits are taken
as far as an unsigned 64-bit word holds them, and the word is scaled by the power of ten that is
left. Each of these operations rounds. So the double may be a neighbour of the nearest one, as it is
for `9007199254740993.0`, which is read as `9007199254740994`; and a literal is refused when its
word is scaled to infinity, even if the largest double is nearest to it.
-/

namespace TypedTree

namespace Binary64

/-- The rank of the product of two magnitudes. -/
def productRank (left right : Nat) : Nat := nearestRank (units left * units right) unitsPerOne

/-- The rank of the quotient of two magnitudes. -/
def quotientRank (left right : Nat) : Nat := nearestRank (units left * unitsPerOne) (units right)

/-- The largest power of ten that is a double. -/
def largestPower : Nat := 308

/--
The rank of a magnitude scaled by `10 ^ exponent`: a product or a quotient with the double nearest
to the power. A power that is no double makes a magnitude infinite, or divides it in several steps.
-/
def scaledRank (rank : Nat) (exponent : Int) : Nat :=
  if exponent.natAbs ≤ largestPower then
    let power := nearestRankOfDecimal 1 exponent.natAbs
    if 0 ≤ exponent then productRank rank power else quotientRank rank power
  else if rank = 0 then 0
  else if 0 ≤ exponent then infiniteRank
  else
    scaledRank (quotientRank rank (nearestRankOfDecimal 1 largestPower)) (exponent + largestPower)
termination_by exponent.natAbs
decreasing_by unfold largestPower at *; omega

end Binary64

namespace Json

/-- A number literal, cut into its parts. -/
structure Literal where
  negative : Bool
  /-- The digits before the point. -/
  whole : List Char
  /-- The digits behind the point. -/
  fraction : List Char
  /-- The exponent that is written, zero if none is. -/
  power : Int
  /-- Neither a point nor an exponent is written. -/
  plain : Bool
  deriving Repr

namespace Literal

/--
The number that digits make behind a word, as far as an unsigned 64-bit word holds it, and the
digits behind the last one that was taken.
-/
def extend (word : Nat) : List Char → Nat × List Char
  | [] => (word, [])
  | digit :: rest =>
    let longer := Nat.ofDigitChars 10 [digit] word
    if longer < 2 * Decimal.int64Bound then extend longer rest else (word, digit :: rest)

/--
The double that a literal is read as, if it is finite. A digit before the point that is not taken
counts a power of ten, a digit behind the point that is not taken counts nothing.
-/
def double? (literal : Literal) : Option Binary64 :=
  let (word, left) := extend 0 literal.whole
  let (word, dropped) := extend word literal.fraction
  let places : Int := literal.fraction.length - dropped.length
  let rank := Binary64.scaledRank (Binary64.nearestRankOfDecimal word 0)
    (literal.power + left.length - places)
  if finite : rank < Binary64.infiniteRank then some ⟨literal.negative, rank, finite⟩ else none

/-- The number that a literal is read as; none if its double is not finite. -/
def number? (literal : Literal) : Option Json.Number :=
  let magnitude := Nat.ofDigitChars 10 literal.whole 0
  let value : Int := if literal.negative then -magnitude else magnitude
  if literal.plain && fitsWord value && !(literal.negative && magnitude == 0) then some (.int value)
  else literal.double?.map .float

end Literal
end Json
end TypedTree
