import TypedTree.Path

/-!
# Conversion errors

A conversion stops at the first value that it cannot use. The error names the place and the cause,
and the text of an error begins with the place.
-/

namespace TypedTree

/-- Why a value could not be converted. -/
inductive ConvertError.Cause where
  /-- The value is of another kind than the shape asks for. -/
  | typeMismatch (got want : String)
  /-- The number is neither a 64-bit integer nor exactly a double. -/
  | inexactNumber
  /-- The text stands for a number and is no numeral. -/
  | invalidNumber (text : String)
  /-- The elements of a collection have different shapes. -/
  | inconsistentElementType
  /-- The object shape has no attribute of this name. -/
  | unexpectedAttribute
  /-- An unknown value cannot leave the typed model. -/
  | unknownValue
  deriving DecidableEq, Repr

/-- A conversion error: where, and why. -/
structure ConvertError where
  path : Path
  cause : ConvertError.Cause

namespace ConvertError

/-- The wording of a cause. -/
def Cause.message : Cause → String
  | typeMismatch got want => "cannot use " ++ got ++ " value as " ++ want
  | inexactNumber => "number cannot be represented exactly as a 64-bit integer or float"
  | invalidNumber text => "string " ++ Text.quoted text ++ " is not a valid number"
  | inconsistentElementType => "element type differs from the preceding elements"
  | unexpectedAttribute => "attribute is not declared by the object type"
  | unknownValue => "value is unknown and cannot be serialized"

/-- The wording of an error without its place. -/
def message (error : ConvertError) : String := error.cause.message

/-- The text of an error: its place, then its wording. -/
def text (error : ConvertError) : String := error.path.text ++ ": " ++ error.message

/-- The same error at another place. -/
def mapPath (error : ConvertError) (change : Path → Path) : ConvertError :=
  { error with path := change error.path }

/--
An error that was raised under the path of a set, addressed through the element in which it was
raised: the element's step goes in right behind the path of the set.
-/
def throughElement (set : Path) (element : Value) (error : ConvertError) : ConvertError :=
  error.mapPath fun path => path.insertedAt set.length (.element element)

end ConvertError
end TypedTree
