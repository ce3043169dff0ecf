import TypedTree.Command.Arguments
import TypedTree.Command.Run

/-!
# The program

Collects the files that a command names on a disk, runs the command there, and carries out what its
report says.
-/

namespace TypedTree.Program

/-- The names that the parts of a path lead through, last first. -/
def names (disk : Disk) (path : String) : List String :=
  (disk.origin path ++ pathParts path).foldl
    (fun names part =>
      if staysPut part then names
      else if part = ".." then names.tail
      else part :: names)
    []

/-- The tree below an entry of a directory; its files come without their bytes. -/
partial def outline (entry : IO.FS.DirEntry) : IO FileNode := do
  if ← entry.path.isDir then
    let mut node := FileNode.empty
    for below in ← entry.path.readDir do
      node := node.put [below.fileName] (← outline below)
    return node
  else return .file []

/-- Puts the file at a path on the disk, if there is one that can be read. -/
def collect (disk : Disk) (path : String) : IO Disk := do
  let place := (← IO.currentDir) / path
  if ← place.isDir then
    match disk.locate path with
    | .ok _ => return disk
    | .error _ => return disk.put (names disk path) .empty
  try
    let bytes ← IO.FS.readBinFile place
    return disk.put (names disk path) (.file bytes.data.toList)
  catch _ => return disk

/-- Puts the tree of the current directory on the disk. -/
def survey (disk : Disk) : IO Disk := do
  let mut disk := disk
  for entry in ← (← IO.currentDir).readDir do
    disk := disk.put (entry.fileName :: disk.current.reverse) (← outline entry)
  return disk

/-- The file that the output of a command goes to. -/
def out : Command → Option String
  | .schema _ out => out
  | .convert _ _ _ _ out => out

/-- The texts that stand for the inputs of a command. -/
def patterns : Command → List String
  | .schema _ _ => []
  | .convert _ patterns _ _ _ => patterns

/-- The schema document of a command. -/
def document : Command → String
  | .schema lookup _ => lookup.document
  | .convert lookup _ _ _ _ => lookup.document

/-- A disk that holds what a command needs. -/
def prepare (command : Command) : IO Disk := do
  let current := (pathParts (← IO.currentDir).toString).filter (!staysPut ·)
  let empty : Disk := ⟨.empty, []⟩
  let mut disk : Disk := { empty.put current.reverse .empty with current }
  if (patterns command).any Glob.isPattern then disk ← survey disk
  disk ← collect disk (document command)
  for pattern in patterns command do
    for path in (Selection.paths .own disk pattern).toOption.getD [] do
      disk ← collect disk path
  if let some path := out command then
    disk ← collect disk (parentPath path)
    disk ← collect disk path
  return disk

/-- Writes the output file of a command, if its report has written one. -/
def deliver (command : Command) (report : Report) : IO Unit := do
  let some path := out command | return
  match report.failure with
  | none | some (.conversion _ _) =>
    let .ok bytes := report.disk.read path | return
    let place ← IO.currentDir
    IO.FS.createDirAll (place / parentPath path)
    IO.FS.writeBinFile (place / path) ⟨bytes.toArray⟩
  | some _ => return

end TypedTree.Program

open TypedTree in
/--
Runs the command that the arguments write. Advice on usage that was not asked for is a failure.
-/
def main (arguments : List String) : IO UInt32 := do
  match Command.read arguments with
  | .error .help =>
    IO.println Usage.help.text
    return 0
  | .error usage =>
    IO.eprintln ("error: " ++ usage.text)
    return 2
  | .ok command =>
    let coloured ← (← IO.getStderr).isTty
    let report := command.run (← Program.prepare command) coloured
    IO.eprint report.stderr
    Program.deliver command report
    IO.print report.stdout
    match report.failure with
    | none => return 0
    | some failure =>
      IO.eprintln (Style.paint coloured "1;31" "error:" ++ " " ++ failure.text)
      return 1
