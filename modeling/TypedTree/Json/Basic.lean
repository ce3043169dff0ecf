import TypedTree.Decimal.Binary64
import TypedTree.Entries

/-!
# Documents

A document is a JSON value whose objects keep the order of their members. A number is an integer or
a finite double, as its text decides; an integer that a reader produces fits a signed or an unsigned
64-bit word.
-/

namespace TypedTree

/-- A JSON number: an integer without a fraction or exponent in its text, or a double. -/
inductive Json.Number where
  | int (value : Int)
  | float (value : Binary64)
  deriving DecidableEq, Repr

/-- A JSON value. -/
inductive Json where
  | null
  | bool (value : Bool)
  | number (value : Json.Number)
  | text (value : String)
  | array (items : List Json)
  | object (members : List (String × Json))
  deriving Inhabited, Repr

namespace Json

/-- An integer as a document. -/
def int (value : Int) : Json := number (.int value)

/-- Integers as a JSON reader keeps them: those of a signed or an unsigned 64-bit word. -/
def fitsWord (value : Int) : Bool :=
  decide (-Decimal.int64Bound ≤ value) && decide (value < 2 * Decimal.int64Bound)

/-- The member of an object under a key; any other value has no members. -/
def member? (key : String) : Json → Option Json
  | object members => Entries.get? members key
  | _ => none

end Json

/-- The decimal that a JSON number stands for. -/
def Decimal.ofJson : Json.Number → Decimal
  | .int value => ofInt value
  | .float value => ofBinary64 value

/-- The decimal that a JSON number is read as, a double by way of its text. -/
def Decimal.ofJson? : Json.Number → Option Decimal
  | .int value => some (ofInt value)
  | .float value => ofBinary64? value

end TypedTree
