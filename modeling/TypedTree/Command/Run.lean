import TypedTree.Command.Batch

/-!
# Running commands

A command is run on a disk and gives a report: what it prints, why it stopped if it did, and the
disk that it leaves. A command that cannot resolve its definition or load its batch prints and
writes nothing.
-/

namespace TypedTree

/-- What a command did. -/
structure Report where
  stdout : String := ""
  stderr : String := ""
  failure : Option Failure := none
  disk : Disk

namespace Lookup

/-- The schema document at a path. -/
def documentAt (tools : Tools) (disk : Disk) (path : String) :
    Except Schema.DocumentError Schema.Document :=
  match disk.read path with
  | .error error => .error (.unreadable error.text)
  | .ok bytes => Schema.Document.ofText tools.scan bytes

/-- The shape of the target of a lookup in a document. -/
def resolveIn (lookup : Lookup) (document : Schema.Document) : Except Failure Shape :=
  match lookup.target with
  | .definition id =>
    (document.resolveDefinition lookup.budget id (.empty : Schema.Cache)).1.mapError .schema
  | .kind text =>
    match Schema.GroupVersionKind.read? text with
    | none => .error (.kind text)
    | some tag =>
      (document.resolveKind lookup.budget tag (.empty : Schema.Cache)).1.mapError .schema

/-- The shape that a lookup finds. -/
def shape (lookup : Lookup) (tools : Tools) (disk : Disk) : Except Failure Shape :=
  match documentAt tools disk lookup.document with
  | .error error => .error (.document lookup.document error)
  | .ok document => lookup.resolveIn document

end Lookup

/-- Delivers output: to a file, whose directory is made, or as a line of its own to be printed. -/
def deliver (disk : Disk) (out : Option String) (contents : String) : Report :=
  match out with
  | none => { stdout := contents ++ "\n", disk }
  | some path =>
    match disk.makePath (parentPath path) with
    | .error error => { failure := some (.directory (parentPath path) error), disk }
    | .ok made =>
      match made.write path contents.toUTF8.toList with
      | .error error => { failure := some (.output path error), disk := made }
      | .ok written => { disk := written }

/-- The report on a batch: documents that were converted are delivered, and the others reported. -/
def reportBatch (disk : Disk) (coloured : Bool) (out : Option String)
    (conversions : List Conversion) : Report :=
  let report := deliver disk out ("\n".intercalate (conversions.filterMap Conversion.shown?))
  let failed := conversions.countP Conversion.failed
  let stderr := String.join (conversions.filterMap (Conversion.diagnostic? coloured))
  let failure :=
    if failed = 0 then none else some (Failure.conversion failed conversions.length)
  { report with stderr, failure := report.failure.or failure }

/-- Runs a command on a disk with some tools. -/
def Command.runWith (tools : Tools) (disk : Disk) (coloured : Bool) : Command → Report
  | schema lookup out =>
    match lookup.shape tools disk with
    | .error failure => { failure := some failure, disk }
    | .ok shape => deliver disk out shape.toJson.pretty
  | convert lookup patterns selection mode out =>
    match lookup.shape tools disk with
    | .error failure => { failure := some failure, disk }
    | .ok shape =>
      match selection.load tools disk patterns with
      | .error failure => { failure := some failure, disk }
      | .ok inputs =>
        reportBatch disk coloured out (inputs.map (Conversion.ofInput mode shape))

/-- Runs a command on a disk. -/
def Command.run (disk : Disk) (coloured : Bool) (command : Command) : Report :=
  command.runWith .own disk coloured

end TypedTree
