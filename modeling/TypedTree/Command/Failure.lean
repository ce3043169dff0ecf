import TypedTree.Files.Glob
import TypedTree.Filter.Reader
import TypedTree.Schema.Resolution

/-!
# Failures of commands

A command that stops says what it could not do and, where another part of the library had the last
word, why. The causes of a failure stand from the outside in.
-/

namespace TypedTree

/-- Why a command stops. -/
inductive Failure where
  /-- The schema document cannot be loaded. -/
  | document (path : String) (error : Schema.DocumentError)
  /-- The text names no resource kind. -/
  | kind (text : String)
  /-- The definition has no shape. -/
  | schema (error : Schema.SchemaError)
  /-- The pattern cannot be read. -/
  | pattern (fault : Glob.Fault)
  /-- The pattern matches nothing. -/
  | unmatched (pattern : String)
  /-- The file of documents cannot be read. -/
  | source (path : String) (error : FileError)
  /-- The file does not hold a document. -/
  | malformedFile (path : String)
  /-- The line of the file does not hold a document. -/
  | malformedLine (path : String) (number : Nat)
  /-- The pointer names nothing in the document. -/
  | pointer (label pointer : String)
  /-- The filter fails on the document. -/
  | filter (label : String) (failure : Filter.Failure)
  /-- The directory of the output cannot be made. -/
  | directory (path : String) (error : FileError)
  /-- The output cannot be written. -/
  | output (path : String) (error : FileError)
  /-- Some of the documents were not converted. -/
  | conversion (failed total : Nat)

namespace Failure

/-- One cause in the chain of causes of a failure. -/
inductive Cause where
  | message (text : String)
  | document (error : Schema.DocumentError)
  | schema (error : Schema.SchemaError)
  | filter (failure : Filter.Failure)
  /--
  A text is no document. The words in which a reader of text says so, with the line and column, are
  left out: one wording stands for all of them.
  -/
  | malformedDocument

/-- The text of a cause. -/
def Cause.text : Cause → String
  | message text => text
  | document error => error.text
  | schema error => error.text
  | filter failure => failure.text
  | malformedDocument => "malformed JSON"

/-- The causes of a document error: the error, and behind an unreadable file the reason for it. -/
def documentCauses : Schema.DocumentError → List Cause
  | .unreadable reason => [.document (.unreadable reason), .message reason]
  | other => [.document other]

/-- The causes of a failure, from the outside in. -/
def causes : Failure → List Cause
  | document path error => .message ("loading " ++ path) :: documentCauses error
  | kind name => [.message ("expected group/version/Kind, got " ++ Text.quoted name)]
  | schema error => [.schema error]
  | pattern fault => [.message fault.text]
  | unmatched text => [.message ("glob pattern matched no files: " ++ text)]
  | source path error =>
    [.message ("failed to read source file " ++ path), .message error.text]
  | malformedFile path =>
    [.message ("failed to parse JSON source file " ++ path), .malformedDocument]
  | malformedLine path number =>
    [.message ("failed to parse " ++ path ++ ":" ++ toString number), .malformedDocument]
  | pointer label sought =>
    [.message (label ++ ": JSON pointer " ++ sought ++ " selects nothing")]
  | filter label failure =>
    [.message ("failed to apply jq expression to " ++ label), .filter failure]
  | directory path error => [.message ("failed to create " ++ path), .message error.text]
  | output path error => [.message ("failed to write " ++ path), .message error.text]
  | conversion failed total =>
    [.message (toString failed ++ " of " ++ toString total ++ " documents failed to convert")]

/-- The text of a failure: its causes behind one another. -/
def text (failure : Failure) : String := ": ".intercalate (failure.causes.map Cause.text)

end Failure
end TypedTree
