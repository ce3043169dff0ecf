import TypedTree.Schema.Resolution

/-!
# Commands

There are two commands. One resolves a definition of a schema document and shows its shape; the
other converts documents by such a shape and shows either their wire forms or the plain documents
that they come back as.
-/

namespace TypedTree

/-- How a command names the definition that it resolves. -/
inductive Target where
  /-- By its identifier. -/
  | definition (id : String)
  /-- By the resource kind that it describes, written as group, version and kind between slashes. -/
  | kind (text : String)
  deriving DecidableEq, Repr

/-- A definition of a schema document, and the budget within which it is resolved. -/
structure Lookup where
  document : String
  target : Target
  budget : Nat
  deriving DecidableEq, Repr

/-- Which documents of a file are converted. -/
structure Selection where
  /-- Every line of a file is a document of its own. -/
  linewise : Bool := false
  /-- The part of each document that is taken. -/
  pointer : Option String := none
  /-- The filter whose outputs take the place of what it is given. -/
  filter : Option String := none
  deriving DecidableEq, Repr

/-- The form in which typed values are shown. -/
inductive Mode where
  | wire
  | roundTrip
  deriving DecidableEq, Repr

/-- A command, with the file that its output goes to if there is one. -/
inductive Command where
  | schema (lookup : Lookup) (out : Option String)
  | convert (lookup : Lookup) (patterns : List String) (selection : Selection) (mode : Mode)
      (out : Option String)
  deriving DecidableEq, Repr

/-- A text up to its first slash and behind it. -/
def splitSlash? (text : List Char) : Option (List Char × List Char) :=
  match text.dropWhile (· != '/') with
  | [] => none
  | _ :: rest => some (text.takeWhile (· != '/'), rest)

/-- The resource kind that a text writes. Only the group may be empty; the kind may hold slashes. -/
def Schema.GroupVersionKind.read? (text : String) : Option Schema.GroupVersionKind := do
  let (group, rest) ← splitSlash? text.toList
  let (version, kind) ← splitSlash? rest
  if version.isEmpty || kind.isEmpty then none
  else some ⟨String.ofList group, String.ofList version, String.ofList kind⟩

end TypedTree
