import TypedTree.Decimal.Numeral

/-!
# Decimals and machine words

A decimal is a signed 64-bit word when it is an integer within the range of one. The integer is
written out and read as a signed 128-bit word, given its sign there, and then cut down to 64 bits.
-/

namespace TypedTree.Decimal

/-- The digits of an integer, with the zeros that its exponent stands for. -/
def wholeDigits (n : Decimal) : List Char := n.digits ++ List.replicate n.exponent.toNat '0'

/-- The signed 128-bit word that a text writes; `none` for a text that writes none. -/
def readInt128? (text : List Char) : Option (BitVec 128) :=
  (readInteger? text).bind fun value =>
    let word := BitVec.ofInt 128 value
    if word.toInt = value then some word else none

/-- A word with a sign; the negation wraps around. -/
def signedWord (negative : Bool) (magnitude : BitVec 128) : BitVec 128 :=
  if negative then -magnitude else magnitude

/--
The signed 64-bit integer that the decimal is, if it is one. A number of more than nineteen integer
digits is refused before any of its zeros is written.
-/
def toInt64? (n : Decimal) : Option Int :=
  if n.isZero then some 0
  else if !n.isInteger || decide (19 < n.point) then none
  else do
    let magnitude ← readInt128? n.wholeDigits
    let value := (signedWord n.negative magnitude).toInt
    if fitsInt64 value then some value else none

end TypedTree.Decimal
