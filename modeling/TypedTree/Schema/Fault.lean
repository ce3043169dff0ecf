import TypedTree.Json.Scan
import TypedTree.Json.Printer
import TypedTree.Text.Quoted

/-!
# Faults of schema documents

A schema document is at fault because it is no JSON, or because a value in it is not of the form
that its place asks for. The latter fault names the place, outermost step first, and the cause.
-/

namespace TypedTree.Schema

/-- A step to a place in a document. -/
inductive Place where
  | key (name : String)
  | index (position : Nat)
  deriving DecidableEq, Repr

/-- What is wrong with a value. -/
inductive Fault.Cause where
  | wrongKind (got want : String)
  | duplicateField (name : String)
  | missingField (name : String)
  /-- A resource kind written as an array lacks items. -/
  | tooFewItems (count : Nat)
  /-- A structure written as an array has more items than fields. -/
  | tooManyItems (count : Nat)
  /-- What an object may hold beyond its properties is neither a truth value nor a node. -/
  | noVariant
  deriving DecidableEq, Repr

/-- A fault of a document. -/
inductive Fault where
  /-- The text is not JSON, or not within what a reader of JSON accepts. -/
  | malformed
  /-- A value is not of the form that its place asks for. -/
  | unfit (place : List Place) (cause : Fault.Cause)
  deriving DecidableEq, Repr

namespace Fault

/-- The wording of a cause. -/
def Cause.message : Cause → String
  | wrongKind got want => "invalid type: " ++ got ++ ", expected " ++ want
  | duplicateField name => "duplicate field `" ++ name ++ "`"
  | missingField name => "missing field `" ++ name ++ "`"
  | tooFewItems count =>
    "invalid length " ++ toString count ++ ", expected struct GroupVersionKind with 3 elements"
  | tooManyItems count =>
    "invalid length " ++ toString count ++ ", expected fewer elements in array"
  | noVariant => "data did not match any variant of untagged enum AdditionalProperties"

/-- The fault of a value, as a fault of the value around it. -/
def under (step : Place) : Fault → Fault
  | malformed => malformed
  | unfit place cause => unfit (step :: place) cause

end Fault

namespace Place

/-- The text of a step behind another one. -/
def text : Place → String
  | key name => "." ++ name
  | index position => "[" ++ toString position ++ "]"

/-- The text of the steps to a place; the place without steps is a single point. -/
def pathText : List Place → String
  | [] => "."
  | key name :: rest => name ++ String.join (rest.map text)
  | steps => String.join (steps.map text)

end Place
end TypedTree.Schema

namespace TypedTree

/-- The characters of a double in a message, where a positive exponent has its sign. -/
def Binary64.messageChars (x : Binary64) : List Char := x.charsWith Decimal.signedChars

/-- What a reader finds where it wanted something else; a value that it cannot read has no name. -/
def Json.Scan.found? : Json.Scan → Option String
  | .null => some "null"
  | .bool value => some ("boolean `" ++ (if value then "true" else "false") ++ "`")
  | .number (some (.int value)) => some ("integer `" ++ (Json.Number.int value).text ++ "`")
  | .number (some (.float value)) =>
    some ("floating point `" ++ String.ofList value.messageChars ++ "`")
  | .text (some value) => some ("string " ++ Text.quoted value)
  | .array _ _ => some "sequence"
  | .object _ _ => some "map"
  | .number none | .text none | .broken => none

/-- The fault of finding a value where something else is wanted. -/
def Schema.Fault.wanting (want : String) (scan : Json.Scan) : Schema.Fault :=
  match scan.found? with
  | some got => .unfit [] (.wrongKind got want)
  | none => .malformed

end TypedTree
