import TypedTree.Json.Pointer

/-!
# References

A reference names a definition of the document by a pointer into its table of definitions, in either
dialect. A pointer of another form names the definition of its last segment.
-/

namespace TypedTree.Schema.Reference

/-- The places at which documents keep their definitions. -/
def tables : List String := ["#/definitions/", "#/components/schemas/"]

/-- The rest of a text behind some leading characters. -/
def behind? (leading text : List Char) : Option (List Char) :=
  if leading.isPrefixOf text then some (text.drop leading.length) else none

/-- What a pointer into one of the tables names: at least one character, and no line feed. -/
def tableEntry? (reference : List Char) : Option (List Char) :=
  (tables.findSome? fun table => behind? table.toList reference).filter fun entry =>
    !entry.isEmpty && !entry.contains '\n'

/-- The characters behind the last slash, or all of them. -/
def lastSegment (text : List Char) : List Char :=
  (text.reverse.takeWhile (· != '/')).reverse

/-- The identifier of the definition that a reference names. -/
def target (reference : String) : String :=
  String.ofList <|
    match tableEntry? reference.toList with
    | some entry => Json.Pointer.unescape entry
    | none => lastSegment reference.toList

end TypedTree.Schema.Reference
