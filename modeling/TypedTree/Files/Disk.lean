import TypedTree.Files.Tree

/-!
# Disks

A disk is a file tree with a current directory. Paths are texts with slashes: one that begins with
a slash is followed from the root, any other from the current directory, and the empty one leads
nowhere.
-/

namespace TypedTree

/-- Parts of a path that stay where they are. -/
def staysPut (part : String) : Bool := part = "" ∨ part = "."

/-- Parts without those at the end that stay where they are, of which a leading one remains. -/
def trimParts : List String → List String
  | [] => []
  | first :: rest => first :: (rest.reverse.dropWhile staysPut).reverse

/-- The path around the last part of a path; a path of one part stands in the empty path. -/
def parentPath (path : String) : String :=
  let around := ((pathParts path).reverse.dropWhile staysPut).tail.reverse
  if around = [""] then "/" else "/".intercalate (trimParts around)

/-- A file tree, and the names that lead from its root to the current directory. -/
structure Disk where
  root : FileNode
  current : List String
  deriving Inhabited

namespace Disk

/-- The names from the root to where a path begins. -/
def origin (disk : Disk) (path : String) : List String :=
  if path.startsWith "/" then [] else disk.current

/-- The place that some parts lead to from the root. -/
def follow (disk : Disk) (parts : List String) : Except FileError FilePlace :=
  (FilePlace.root disk.root).follow parts

/-- The place that a path leads to. -/
def locate (disk : Disk) (path : String) : Except FileError FilePlace :=
  if path = "" then .error .notFound else disk.follow (disk.origin path ++ pathParts path)

/-- The bytes of the file at a path. -/
def read (disk : Disk) (path : String) : Except FileError (List UInt8) :=
  match disk.locate path with
  | .error error => .error error
  | .ok place =>
    match place.node with
    | .file bytes => .ok bytes
    | .directory _ => .error .isDirectory

/-- The text of the file at a path. -/
def readText (disk : Disk) (path : String) : Except FileError String :=
  match disk.read path with
  | .error error => .error error
  | .ok bytes =>
    match String.fromUTF8? ⟨bytes.toArray⟩ with
    | some text => .ok text
    | none => .error .notText

/-- Puts a node at the end of a chain of names, last first. -/
def put (disk : Disk) (names : List String) (node : FileNode) : Disk :=
  { disk with root := disk.root.put names.reverse node }

/--
Makes the directory that further parts lead to behind some parts, and those on the way. Only in
place of the last one can a file be found; behind a file on the way there is no directory.
-/
def makeDirectories (disk : Disk) (before : List String) : List String → Except FileError Disk
  | [] => .ok disk
  | part :: rest =>
    match disk.follow before with
    | .error error => .error error
    | .ok place =>
      match place.step part with
      | .error .notFound =>
        makeDirectories (disk.put (part :: place.names) .empty) (before ++ [part]) rest
      | .error error => .error error
      | .ok next =>
        if next.node.isDirectory then makeDirectories disk (before ++ [part]) rest
        else if rest.isEmpty then .error .alreadyExists
        else .error .notDirectory

/-- Makes the directory of a path and those around it. -/
def makePath (disk : Disk) (path : String) : Except FileError Disk :=
  disk.makeDirectories (disk.origin path) (pathParts path)

/-- Writes a file at a path whose directory exists. A slash at the end asks for a directory. -/
def write (disk : Disk) (path : String) (bytes : List UInt8) : Except FileError Disk :=
  let parts := ((pathParts path).reverse.dropWhile (· = "")).reverse
  if path = "" then .error .notFound
  else
    match disk.follow (disk.origin path ++ parts.dropLast) with
    | .error error => .error error
    | .ok place =>
      if path.endsWith "/" then .error .isDirectory
      else
        let last := parts.getLast?.getD ""
        match place.step last with
        | .ok found =>
          if found.node.isDirectory then .error .isDirectory
          else .ok (disk.put found.names (.file bytes))
        | .error .notFound => .ok (disk.put (last :: place.names) (.file bytes))
        | .error error => .error error

/--
The disk whose current directory, under a name of its own, holds some files under their paths.
-/
def ofFiles (files : List (String × List UInt8)) : Disk :=
  let enter (tree : FileNode) (file : String × List UInt8) : FileNode :=
    tree.put (pathParts file.1) (.file file.2)
  let tree := files.foldl enter .empty
  ⟨.directory [("work", tree)], ["work"]⟩

end Disk
end TypedTree
