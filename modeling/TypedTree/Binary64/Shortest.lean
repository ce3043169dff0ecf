import TypedTree.Binary64.Nearest
import TypedTree.Decimal.Basic

/-!
# The shortest decimal of a double

The shortest decimal of a double is the one of fewest digits that reads back as it. On the grid of
decimals with a given number of digits only the two neighbours of the magnitude can be nearest to
it, so each grid from one digit to seventeen is asked for these two. Of two that read back the
nearer one is taken, and an exact tie goes as the caller says.
-/

namespace TypedTree.Binary64

/-- Which of two equally near decimals is taken. -/
inductive Tie where
  /-- The one whose last digit is even. -/
  | even
  /-- The larger one. -/
  | up
  deriving DecidableEq, Repr

/-- The magnitude of a rank over `10 ^ exponent`, as numerator and denominator. -/
def gridQuotient (rank : Nat) (exponent : Int) : Nat × Nat :=
  if 0 ≤ exponent then (units rank, unitsPerOne * Nat.pow 10 exponent.toNat)
  else (units rank * Nat.pow 10 (-exponent).toNat, unitsPerOne)

/-- Of two neighbouring grid points the nearer one. -/
def nearer (tie : Tie) (low remainder denominator : Nat) : Nat :=
  if 2 * remainder < denominator then low
  else if denominator < 2 * remainder then low + 1
  else match tie with
    | .even => low + low % 2
    | .up => low + 1

/--
The multiple of `10 ^ exponent` next to the magnitude that reads back as the rank, if any. The
nearer one of the two neighbours is asked before both of them in turn.
-/
def gridPoint? (tie : Tie) (rank : Nat) (exponent : Int) : Option Nat :=
  let quotient := gridQuotient rank exponent
  let low := quotient.1 / quotient.2
  [nearer tie low (quotient.1 % quotient.2) quotient.2, low, low + 1].find? fun significand =>
    nearestRankOfDecimal significand exponent == rank

/-- The position of the decimal point in the exact decimal of a positive magnitude. -/
def leadingPoint (rank : Nat) : Int :=
  (Nat.toDigits 10 (units rank * Nat.pow 10 400 / unitsPerOne)).length - 400

/-- The exact decimal of a magnitude, which reads back as it like every decimal near enough. -/
def exactDecimal (rank : Nat) : Nat × Int :=
  (units rank * Nat.pow 5 1074, -1074)

/-- The shortest decimal that reads back as the magnitude of a rank; zero is zero. -/
def shortest (tie : Tie) (rank : Nat) : Decimal :=
  if rank = 0 then Decimal.zero
  else
    let point := leadingPoint rank
    let found := (List.range' 1 17).findSome? fun (count : Nat) =>
      (gridPoint? tie rank (point - count)).map fun significand => (significand, point - count)
    let decimal := found.getD (exactDecimal rank)
    Decimal.reduce false decimal.1 decimal.2

end TypedTree.Binary64
