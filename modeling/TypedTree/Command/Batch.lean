import TypedTree.Command.Basic
import TypedTree.Command.Failure
import TypedTree.Convert.Inbound
import TypedTree.Convert.Wire
import TypedTree.Json.Pointer
import TypedTree.Json.Printer
import TypedTree.Json.Reader
import TypedTree.Text.Blank

/-!
# Batches

A batch is the documents of some files in order, each under a label. Nothing is converted before the
whole batch is loaded, and one document that cannot be loaded stops the command. Conversion on the
other hand goes on behind a document that fails: what comes of a document depends on no other one.

How a text is scanned, which files a pattern matches and what a filter gives is left to tools.
-/

namespace TypedTree

/--
What commands leave to others: the scan of a text, the files of a pattern, and the outputs of a
filter.
-/
structure Tools where
  /-- What a text holds, of a schema document as well as of a document. -/
  scan : Json.Scanner
  /-- The paths that a pattern matches on a disk. -/
  expand : Disk → String → Except Glob.Fault (List String)
  /-- What the filter of a text gives for a document. -/
  filter : String → Json → Except Filter.Failure Filter.Outputs

namespace Tools

/-- The scans, patterns and filters of this library. -/
def own : Tools := ⟨Json.Scan.ofBytes, Glob.expand, Filter.outputs⟩

/-- The document that a text spells, nested at most `depthLimit` deep. -/
def read? (tools : Tools) (text : String) : Option Json :=
  tools.scan.read? Json.depthLimit text.toUTF8.toList

/-- The documents that a filter text gives for a document, unless it fails at one of them. -/
def filtered (tools : Tools) (source : String) (document : Json) :
    Except Filter.Failure (List Json) :=
  match tools.filter source document with
  | .error failure => .error failure
  | .ok outputs => outputs.complete

end Tools

/-- A document of a batch, and how messages refer to it. -/
structure Input where
  label : String
  document : Json

namespace Selection

/-- What items give, one behind the other. The first that gives nothing has the last word. -/
def gather {α β : Type} (each : α → Except Failure (List β)) : List α → Except Failure (List β)
  | [] => .ok []
  | item :: rest =>
    match each item with
    | .error failure => .error failure
    | .ok found => (gather each rest).map (found ++ ·)

section Gathered

variable (tools : Tools) (selection : Selection) (disk : Disk)

/-- The document of a line with its number; a blank line holds none. -/
def ofLine (path : String) (line : List Char × Nat) : Except Failure (List Json) :=
  if line.1.all Text.isBlank then .ok []
  else
    match tools.read? (String.ofList line.1) with
    | none => .error (.malformedLine path line.2)
    | some document => .ok [document]

/-- The documents of the text of a file. -/
def documents (path text : String) : Except Failure (List Json) :=
  if selection.linewise then gather (ofLine tools path) ((Text.lines text.toList).zipIdx 1)
  else
    match tools.read? text with
    | none => .error (.malformedFile path)
    | some document => .ok [document]

/-- Documents under one label, numbered from a position on. -/
def numbered (label : String) (position : Nat) : List Json → List Input
  | [] => []
  | document :: rest =>
    ⟨label ++ "[" ++ toString position ++ "]", document⟩ :: numbered label (position + 1) rest

/-- Documents under one label; several are numbered. -/
def labelled (label : String) : List Json → List Input
  | [document] => [⟨label, document⟩]
  | documents => numbered label 0 documents

/-- The part of a document that the pointer names. -/
def pointed (label : String) (document : Json) : Except Failure Json :=
  match selection.pointer with
  | none => .ok document
  | some pointer =>
    match Json.Pointer.select? pointer document with
    | some part => .ok part
    | none => .error (.pointer label pointer)

/-- What the pointer and then the filter leave of a document. -/
def select (label : String) (document : Json) : Except Failure (List Input) :=
  match selection.pointed label document with
  | .error failure => .error failure
  | .ok part =>
    match selection.filter with
    | none => .ok [⟨label, part⟩]
    | some source =>
      match tools.filtered source part with
      | .ok outputs => .ok (labelled label outputs)
      | .error failure => .error (.filter label failure)

/-- The label of a document of a file; documents on lines are told apart by their position. -/
def label (path : String) (position : Nat) : String :=
  if selection.linewise then path ++ "#" ++ toString position else path

/-- The inputs of a file. -/
def ofFile (path : String) : Except Failure (List Input) :=
  match disk.readText path with
  | .error error => .error (.source path error)
  | .ok text =>
    match selection.documents tools path text with
    | .error failure => .error failure
    | .ok documents =>
      gather (fun entry => selection.select tools (selection.label path entry.2) entry.1)
        documents.zipIdx

/-- The paths that a text stands for: itself, or what it matches as a pattern. -/
def paths (text : String) : Except Failure (List String) :=
  if Glob.isPattern text then
    match tools.expand disk text with
    | .error fault => .error (.pattern fault)
    | .ok [] => .error (.unmatched text)
    | .ok paths => .ok paths
  else .ok [text]

/-- The batch of a command. All patterns are matched before any file is read. -/
def load (patterns : List String) : Except Failure (List Input) :=
  match gather (paths tools disk) patterns with
  | .error failure => .error failure
  | .ok paths => gather (selection.ofFile tools disk) paths

end Gathered

end Selection

/-- A document converted by a shape, in the form of a mode; an absent result is shown as null. -/
def Mode.convert (mode : Mode) (shape : Shape) (document : Json) : Except ConvertError Json :=
  match Value.ofJson document shape .root with
  | .error error => .error error
  | .ok value =>
    match mode with
    | wire => value.encode
    | roundTrip => (value.toJson? .root).map (·.getD .null)

/-- What became of an input. -/
structure Conversion where
  label : String
  result : Except ConvertError Json

namespace Conversion

/-- The conversion of an input. -/
def ofInput (mode : Mode) (shape : Shape) (input : Input) : Conversion :=
  ⟨input.label, mode.convert shape input.document⟩

/-- The shown document of a conversion that did not fail. -/
def shown? (conversion : Conversion) : Option String :=
  match conversion.result with
  | .ok document => some document.pretty
  | .error _ => none

/-- Whether a conversion failed. -/
def failed (conversion : Conversion) : Bool := conversion.shown?.isNone

end Conversion

/-- The escape sequence of a terminal style. -/
def Style.sequence (codes : String) : String := "\x1b[" ++ codes ++ "m"

/--
A text in a terminal style, if styles are wanted. Where the text itself ends all styles, this one
begins again.
-/
def Style.paint (wanted : Bool) (codes text : String) : String :=
  if wanted then
    let opening := Style.sequence codes
    let closing := Style.sequence "0"
    opening ++ (closing ++ opening).intercalate (text.splitOn closing) ++ closing
  else text

namespace Conversion

/-- The line that reports a failed conversion. -/
def diagnostic? (coloured : Bool) (conversion : Conversion) : Option String :=
  match conversion.result with
  | .ok _ => none
  | .error error =>
    let paint := Style.paint coloured
    some (paint "1;31" "error:" ++ " " ++ conversion.label ++ ": " ++ paint "1" error.path.text ++
      ": " ++ paint "31" error.message ++ "\n")

end Conversion
end TypedTree
