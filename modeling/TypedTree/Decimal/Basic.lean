/-!
# Decimal numbers

A decimal is a sign, a significand and a power of ten, held in lowest terms: the significand has no
trailing zero, and zero has one form. Two decimals are therefore the same number exactly when they
are the same structure. The exponent is an integer of any size; what a numeral may write is the
concern of the reader, not of the type.
-/

namespace TypedTree

/-- The number `significand * 10 ^ exponent`, negated when `negative` holds. -/
structure Decimal where
  negative : Bool
  significand : Nat
  exponent : Int
  /-- Only zero ends in a zero digit, and zero is unsigned with exponent zero. -/
  reduced : significand % 10 = 0 → negative = false ∧ significand = 0 ∧ exponent = 0
  deriving DecidableEq, Repr

namespace Decimal

/--
A significand without its trailing zero digits, and how many were dropped; zero keeps its own.
-/
def dropZeros (significand : Nat) : Nat × Nat :=
  if significand = 0 then (0, 0)
  else if significand % 10 = 0 then
    let (rest, dropped) := dropZeros (significand / 10)
    (rest, dropped + 1)
  else (significand, 0)
termination_by significand
decreasing_by omega

/-- Dropping zeros leaves a significand that ends in a zero digit only if it is zero. -/
theorem dropZeros_reduced (significand : Nat) (ends : (dropZeros significand).1 % 10 = 0) :
    (dropZeros significand).1 = 0 := by
  fun_induction dropZeros significand <;> simp_all

/-- The number zero. -/
def zero : Decimal := ⟨false, 0, 0, by simp⟩

instance : Inhabited Decimal := ⟨zero⟩

/-- The decimal in lowest terms that has the value of the given parts. -/
def reduce (negative : Bool) (significand : Nat) (exponent : Int) : Decimal :=
  let trimmed := dropZeros significand
  if present : trimmed.1 = 0 then zero
  else
    ⟨negative, trimmed.1, exponent + trimmed.2, fun ends =>
      absurd (dropZeros_reduced significand ends) present⟩

/-- An integer as a decimal. -/
def ofInt (value : Int) : Decimal := reduce (value < 0) value.natAbs 0

/-- The significant digits, first to last; zero has none. -/
def digits (n : Decimal) : List Char :=
  if n.significand = 0 then [] else Nat.toDigits 10 n.significand

/-- The position of the decimal point, counted from the left end of the digits. -/
def point (n : Decimal) : Int := n.digits.length + n.exponent

/-- A decimal is zero when its significand is. -/
def isZero (n : Decimal) : Bool := n.significand == 0

/-- In lowest terms a number is an integer exactly when its exponent is not negative. -/
def isInteger (n : Decimal) : Bool := decide (0 ≤ n.exponent)

/-- The same magnitude, without the sign. -/
def magnitude (n : Decimal) : Decimal :=
  { n with negative := false, reduced := fun ends => ⟨rfl, (n.reduced ends).2⟩ }

/-- One more than the largest signed 64-bit word. -/
def int64Bound : Int := 0x8000000000000000

/-- Whether an integer is one of the signed 64-bit words. -/
def fitsInt64 (value : Int) : Bool := decide (-int64Bound ≤ value) && decide (value < int64Bound)

end Decimal
end TypedTree
