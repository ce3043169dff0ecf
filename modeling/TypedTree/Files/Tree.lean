import TypedTree.Json.Pointer

/-!
# File trees

A file tree is a directory of files and further directories, in the order of their names. A path is
followed part by part: a part `.` stays where it is, `..` goes back, and any other part needs a
directory that has an entry of its name.
-/

namespace TypedTree

/-- A file with its bytes, or a directory with its entries in the order of their names. -/
inductive FileNode where
  | file (bytes : List UInt8)
  | directory (entries : List (String × FileNode))
  deriving Inhabited

/-- Why a path cannot be followed or used. -/
inductive FileError where
  | notFound
  | notDirectory
  | isDirectory
  | alreadyExists
  /-- The bytes of the file are no UTF-8 text. -/
  | notText
  deriving DecidableEq, Repr

/-- The text of a file error. -/
def FileError.text : FileError → String
  | notFound => "No such file or directory (os error 2)"
  | notDirectory => "Not a directory (os error 20)"
  | isDirectory => "Is a directory (os error 21)"
  | alreadyExists => "File exists (os error 17)"
  | notText => "stream did not contain valid UTF-8"

namespace FileNode

/-- The directory without entries. -/
def empty : FileNode := directory []

/-- Whether a node is a directory. -/
def isDirectory : FileNode → Bool
  | directory _ => true
  | file _ => false

/-- The entries of a directory; a file has none. -/
def entries : FileNode → List (String × FileNode)
  | directory entries => entries
  | file _ => []

/-- Enters a node under a name, in the order of names. -/
def enter (name : String) (node : FileNode) : List (String × FileNode) → List (String × FileNode)
  | [] => [(name, node)]
  | (other, present) :: rest =>
    if name = other then (name, node) :: rest
    else if name < other then (name, node) :: (other, present) :: rest
    else (other, present) :: enter name node rest

/-- Puts a node at the end of a chain of names; directories on the way are made. -/
def put (names : List String) (tree node : FileNode) : FileNode :=
  match names with
  | [] => node
  | name :: rest =>
    let below := (Entries.get? tree.entries name).getD empty
    directory (enter name (put rest below node) tree.entries)

end FileNode

/-- The parts of a path between slashes. -/
def pathParts (path : String) : List String :=
  (Json.Pointer.segments path.toList).map String.ofList

/-- A place in a tree: the names that lead there, last first, and the nodes passed on the way. -/
structure FilePlace where
  names : List String
  node : FileNode
  above : List FileNode
  deriving Inhabited

namespace FilePlace

/-- The root of a tree. -/
def root (tree : FileNode) : FilePlace := ⟨[], tree, []⟩

/-- One part of a path further. -/
def step (place : FilePlace) (part : String) : Except FileError FilePlace :=
  if !place.node.isDirectory then .error .notDirectory
  else if part = "" ∨ part = "." then .ok place
  else if part = ".." then
    match place.above with
    | [] => .ok place
    | node :: above => .ok ⟨place.names.tail, node, above⟩
  else
    match Entries.get? place.node.entries part with
    | some node => .ok ⟨part :: place.names, node, place.node :: place.above⟩
    | none => .error .notFound

/-- Follows the parts of a path. -/
def follow (place : FilePlace) (parts : List String) : Except FileError FilePlace :=
  parts.foldlM step place

end FilePlace

end TypedTree
