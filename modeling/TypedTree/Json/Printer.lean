import TypedTree.Json.Basic
import TypedTree.Decimal.Layout

/-!
# Writing documents

A document is written on one line without blanks, or over several lines with two blanks of indent
for each level; an empty array or object stays on its line. A double is written with its shortest
digits, positionally while the point stands within the first sixteen digits or at most five places
before them, and keeps a mark of being a double in either form.
-/

namespace TypedTree

/--
The characters of a positive double of the given digits and position of the point, with its exponent
written as `exponentChars` says.
-/
def Binary64.digitChars (exponentChars : Int → List Char) (digits : List Char) (point : Int) :
    List Char :=
  if point ≤ -5 ∨ 16 < point then Decimal.scientificChars exponentChars digits point
  else if point ≤ 0 then '0' :: '.' :: List.replicate (-point).toNat '0' ++ digits
  else if digits.length ≤ point then
    digits ++ List.replicate (point.toNat - digits.length) '0' ++ ['.', '0']
  else digits.take point.toNat ++ '.' :: digits.drop point.toNat

/-- The characters of a double; zero has a sign and a place after the point. -/
def Binary64.charsWith (exponentChars : Int → List Char) (x : Binary64) : List Char :=
  let sign := if x.negative then ['-'] else []
  let magnitude := Binary64.shortest .even x.rank
  if magnitude.isZero then sign ++ ['0', '.', '0']
  else sign ++ Binary64.digitChars exponentChars magnitude.digits magnitude.point

/-- The characters of a double in a document. -/
def Binary64.chars (x : Binary64) : List Char := x.charsWith Decimal.integerChars

namespace Json

/-- The text of a number. -/
def Number.text : Json.Number → String
  | .int value => String.ofList (Decimal.integerChars value)
  | .float value => String.ofList value.chars

/-- Two hexadecimal digits of a control character. -/
def hexPair (n : Nat) : List Char := [Nat.digitChar (n / 16), Nat.digitChar (n % 16)]

/-- A character inside a JSON string; only the quote, the backslash and controls are escaped. -/
def escape (c : Char) : List Char :=
  match c with
  | '"' => ['\\', '"']
  | '\\' => ['\\', '\\']
  | '\x08' => ['\\', 'b']
  | '\x0c' => ['\\', 'f']
  | '\n' => ['\\', 'n']
  | '\r' => ['\\', 'r']
  | '\t' => ['\\', 't']
  | _ => if c.toNat < 32 then ['\\', 'u', '0', '0'] ++ hexPair c.toNat else [c]

/-- A JSON string. -/
def stringText (value : String) : String :=
  String.ofList ('"' :: value.toList.flatMap escape ++ ['"'])

mutual

/-- The one-line text of a document. -/
def compact : Json → String
  | .null => "null"
  | .bool value => if value then "true" else "false"
  | .number value => value.text
  | .text value => stringText value
  | .array items => "[" ++ ",".intercalate (compactItems items) ++ "]"
  | .object members => "\x7b" ++ ",".intercalate (compactMembers members) ++ "\x7d"
termination_by structural document => document

/-- The one-line texts of items. -/
def compactItems : List Json → List String
  | [] => []
  | item :: rest => compact item :: compactItems rest
termination_by structural items => items

/-- The one-line texts of members. -/
def compactMembers : List (String × Json) → List String
  | [] => []
  | (key, value) :: rest => (stringText key ++ ":" ++ compact value) :: compactMembers rest
termination_by structural members => members

end

/-- The start of a line at a level of indentation. -/
def indentation (level : Nat) : String := String.ofList (List.replicate (2 * level) ' ')

/-- Lines between brackets, one level deeper than the brackets; without lines a bare pair. -/
def bracketed (opening closing : String) (level : Nat) (lines : List String) : String :=
  if lines.isEmpty then opening ++ closing
  else
    let inner := lines.map fun line => indentation (level + 1) ++ line
    opening ++ "\n" ++ ",\n".intercalate inner ++ "\n" ++ indentation level ++ closing

mutual

/-- The indented text of a document whose first line stands at a level. -/
def prettyAt (level : Nat) : Json → String
  | .null => "null"
  | .bool value => if value then "true" else "false"
  | .number value => value.text
  | .text value => stringText value
  | .array items => bracketed "[" "]" level (prettyItems (level + 1) items)
  | .object members => bracketed "\x7b" "\x7d" level (prettyMembers (level + 1) members)
termination_by structural document => document

/-- The indented texts of items. -/
def prettyItems (level : Nat) : List Json → List String
  | [] => []
  | item :: rest => prettyAt level item :: prettyItems level rest
termination_by structural items => items

/-- The indented texts of members. -/
def prettyMembers (level : Nat) : List (String × Json) → List String
  | [] => []
  | (key, value) :: rest =>
    (stringText key ++ ": " ++ prettyAt level value) :: prettyMembers level rest
termination_by structural members => members

end

/-- The indented text of a document. -/
def pretty (document : Json) : String := prettyAt 0 document

end Json
end TypedTree
