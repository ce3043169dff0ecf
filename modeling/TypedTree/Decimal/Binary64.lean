import TypedTree.Binary64.Shortest
import TypedTree.Decimal.Layout
import TypedTree.Decimal.Numeral

/-!
# Decimals and doubles

A whole double stands for its exact integer, any other double for its shortest decimal. It is read
by way of its text, which writes that decimal without an exponent. A decimal is a double exactly
when it is the decimal that its nearest double is read as, and that double is found by way of the
text of the decimal.
-/

namespace TypedTree

/-- The text of a finite double without an exponent: exact if it is whole, shortest otherwise. -/
def Binary64.positionalChars (x : Binary64) : List Char :=
  let magnitude :=
    if isWhole x.rank then Nat.toDigits 10 (units x.rank / unitsPerOne)
    else (shortest .up x.rank).positionalChars
  if x.negative then '-' :: magnitude else magnitude

/-- The double nearest to what a numeral spells out, whatever its exponent, if that is finite. -/
def Binary64.readChars? (text : List Char) : Option Binary64 := do
  let spelling ← Decimal.readSpelling? text
  nearest? spelling.negative spelling.significand spelling.lastPlace

namespace Decimal

/-- The decimal that a finite double stands for; both zeros stand for zero. -/
def ofBinary64 (x : Binary64) : Decimal :=
  if Binary64.isWhole x.rank then
    reduce x.negative (Binary64.units x.rank / Binary64.unitsPerOne) 0
  else
    let magnitude := Binary64.shortest .up x.rank
    reduce x.negative magnitude.significand magnitude.exponent

/-- The decimal that the text of a finite double is read as. -/
def ofBinary64? (x : Binary64) : Option Decimal := readChars? x.positionalChars

/-- The double that a decimal denotes exactly, if there is one. -/
def toBinary64? (n : Decimal) : Option Binary64 :=
  (Binary64.readChars? n.chars).filter fun x => ofBinary64? x = some n

end Decimal
end TypedTree
