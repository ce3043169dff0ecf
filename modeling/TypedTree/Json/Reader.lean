import TypedTree.Json.Scan

/-!
# Reading documents

A document is read from a scan that follows the grammar throughout, holds only Unicode text and
finite numbers, and nests no deeper than allowed. A repeated key keeps its first place and its last
value.
-/

namespace TypedTree.Json

namespace Scan

mutual

/-- The document that a scan holds, if it is whole and nests at most `depth` containers. -/
def toJson? (depth : Nat) : Scan → Option Json
  | .null => some .null
  | .bool value => some (.bool value)
  | .number value => value.map .number
  | .text value => value.map .text
  | .array items closed =>
    match depth with
    | 0 => none
    | depth + 1 => if closed then (itemsToJson? depth items).map .array else none
  | .object members closed =>
    match depth with
    | 0 => none
    | depth + 1 =>
      if closed then (membersToJson? depth members).map fun read => .object (Entries.ofList read)
      else none
  | .broken => none
termination_by structural scan => scan

/-- The documents of the items of an array. -/
def itemsToJson? (depth : Nat) : List Scan → Option (List Json)
  | [] => some []
  | item :: rest =>
    match toJson? depth item, itemsToJson? depth rest with
    | some item, some rest => some (item :: rest)
    | _, _ => none
termination_by structural items => items

/-- The keys and documents of the members of an object, as the text has them. -/
def membersToJson? (depth : Nat) : List (Option String × Scan) → Option (List (String × Json))
  | [] => some []
  | (key, value) :: rest =>
    match key, toJson? depth value, membersToJson? depth rest with
    | some key, some value, some rest => some ((key, value) :: rest)
    | _, _, _ => none
termination_by structural members => members

end

mutual

/-- Whether a scan follows the grammar to its end; texts, numbers and depth are not asked about. -/
def isWhole : Scan → Bool
  | .array items closed => closed && allWhole items
  | .object members closed => closed && allMembersWhole members
  | .broken => false
  | _ => true
termination_by structural scan => scan

/-- Whether every item follows the grammar to its end. -/
def allWhole : List Scan → Bool
  | [] => true
  | item :: rest => isWhole item && allWhole rest
termination_by structural items => items

/-- Whether every member follows the grammar to its end. -/
def allMembersWhole : List (Option String × Scan) → Bool
  | [] => true
  | (_, value) :: rest => isWhole value && allMembersWhole rest
termination_by structural members => members

end

end Scan

/-- The deepest nesting of arrays and objects that a document may have. -/
def depthLimit : Nat := 127

/-- The document that a scanner finds in bytes; nothing but blanks may follow it. -/
def Scanner.read? (scan : Scanner) (depth : Nat) (bytes : List UInt8) : Option Json :=
  match scan bytes with
  | (found, []) => found.toJson? depth
  | (_, _ :: _) => none

/-- The document that bytes spell; nothing but blanks may follow it. -/
def readBytes? (depth : Nat) (bytes : List UInt8) : Option Json :=
  Scanner.read? Scan.ofBytes depth bytes

end TypedTree.Json
