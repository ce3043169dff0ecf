import TypedTree.Json.Basic

/-!
# JSON pointers

A pointer names a place in a document by segments, each behind a slash. Inside a segment `~1` stands
for a slash and `~0` for a tilde; the slash is restored first, so that `~01` gives `~1`.
-/

namespace TypedTree.Json.Pointer

/-- Every `~1` as a slash. -/
def restoreSlashes : List Char → List Char
  | '~' :: '1' :: rest => '/' :: restoreSlashes rest
  | c :: rest => c :: restoreSlashes rest
  | [] => []

/-- Every `~0` as a tilde. -/
def restoreTildes : List Char → List Char
  | '~' :: '0' :: rest => '~' :: restoreTildes rest
  | c :: rest => c :: restoreTildes rest
  | [] => []

/-- A segment without its escapes. -/
def unescape (segment : List Char) : List Char := restoreTildes (restoreSlashes segment)

/-- A text written as a segment. -/
def escape (text : List Char) : List Char :=
  text.flatMap fun c =>
    if c = '~' then ['~', '0'] else if c = '/' then ['~', '1'] else [c]

/-- The parts of a text between slashes; a text without one is its only part. -/
def segments : List Char → List (List Char)
  | [] => [[]]
  | c :: rest =>
    if c = '/' then [] :: segments rest
    else
      match segments rest with
      | [] => [[c]]
      | first :: others => (c :: first) :: others

/-- The position that a segment names: plain digits without a leading zero. -/
def position? (segment : List Char) : Option Nat :=
  if segment.isEmpty || !segment.all Char.isDigit then none
  else if segment.head? == some '0' && segment.length != 1 then none
  else some (Nat.ofDigitChars 10 segment 0)

/-- One segment further into a document. -/
def step? (document : Json) (segment : List Char) : Option Json :=
  match document with
  | .object members => Entries.get? members (String.ofList segment)
  | .array items => (position? segment).bind fun position => items[position]?
  | _ => none

/-- The part of a document that a pointer names; the empty pointer names the whole. -/
def select? (pointer : String) (document : Json) : Option Json :=
  match pointer.toList with
  | [] => some document
  | '/' :: rest => ((segments rest).map unescape).foldlM step? document
  | _ => none

end TypedTree.Json.Pointer
