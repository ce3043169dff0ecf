import TypedTree.Files.Disk

/-!
# Glob patterns

A pattern is a path whose parts may hold wildcards: `?` for one character, `*` for any number of
them, `[..]` and `[!..]` for one character of a set or outside of it. A part `**` stands for any
number of directories. The matches of a pattern come in the order of a walk through the tree that
takes the entries of each directory by name.
-/

namespace TypedTree.Glob

/-- A member of a set of characters. -/
inductive CharSet where
  | one (c : Char)
  | range (first last : Char)
  deriving DecidableEq, Repr

/-- What a pattern asks for at one point of a name. -/
inductive Token where
  | char (c : Char)
  | anyChar
  | anySequence
  /-- Any number of directories; it stands for a whole part of a path. -/
  | anyDirectories
  | within (set : List CharSet)
  | outside (set : List CharSet)
  deriving DecidableEq, Repr

/-- Why a text is no pattern. -/
inductive Fault.Cause where
  | wildcards
  | recursiveWildcards
  | invalidRange
  deriving DecidableEq, Repr

/-- A fault of a pattern, with the position of the character at which it was found. -/
structure Fault where
  position : Nat
  cause : Fault.Cause
  deriving DecidableEq, Repr

/-- The wording of a cause. -/
def Fault.Cause.message : Fault.Cause → String
  | wildcards => "wildcards are either regular `*` or recursive `**`"
  | recursiveWildcards => "recursive wildcards must form a single path component"
  | invalidRange => "invalid range pattern"

/-- The text of a fault. -/
def Fault.text (fault : Fault) : String :=
  "Pattern syntax error near position " ++ toString fault.position ++ ": " ++ fault.cause.message

/-- The members of a set, from the characters between its brackets. -/
def charSets : List Char → List CharSet
  | first :: '-' :: last :: rest => .range first last :: charSets rest
  | c :: rest => .one c :: charSets rest
  | [] => []

/-- The characters of a set up to its closing bracket, of which the first is never the bracket. -/
def setBefore? : List Char → Option (List Char)
  | first :: rest =>
    if rest.contains ']' then some (first :: rest.takeWhile (· != ']')) else none
  | [] => none

/-- The tokens of a pattern from a position on, behind a character if there is one. -/
def readFrom (position : Nat) (previous : Option Char) (text : List Char) :
    Except Fault (List Token) :=
  match text with
  | [] => .ok []
  | '?' :: rest => (readFrom (position + 1) (some '?') rest).map (.anyChar :: ·)
  | '*' :: '*' :: '*' :: _ => .error ⟨position + 2, .wildcards⟩
  | '*' :: '*' :: rest =>
    if previous.any (· != '/') then .error ⟨position - 1, .recursiveWildcards⟩
    else
      match rest with
      | [] => .ok [.anyDirectories]
      | '/' :: rest => (readFrom (position + 3) (some '/') rest).map (.anyDirectories :: ·)
      | _ :: _ => .error ⟨position + 2, .recursiveWildcards⟩
  | '*' :: rest => (readFrom (position + 1) (some '*') rest).map (.anySequence :: ·)
  | '[' :: '!' :: rest =>
    match setBefore? rest with
    | none => .error ⟨position, .invalidRange⟩
    | some set =>
      (readFrom (position + set.length + 3) (some ']') (rest.drop (set.length + 1))).map
        (.outside (charSets set) :: ·)
  | '[' :: rest =>
    match setBefore? rest with
    | none => .error ⟨position, .invalidRange⟩
    | some set =>
      (readFrom (position + set.length + 2) (some ']') (rest.drop (set.length + 1))).map
        (.within (charSets set) :: ·)
  | c :: rest => (readFrom (position + 1) (some c) rest).map (.char c :: ·)
termination_by text.length

/-- The tokens of a pattern. -/
def read (text : List Char) : Except Fault (List Token) := readFrom 0 none text

/-- Whether a character is a member of a set. -/
def CharSet.holds (c : Char) : CharSet → Bool
  | one member => c = member
  | range first last => first ≤ c && c ≤ last

/-- Whether a token that asks for one character takes this one. -/
def Token.admits (c : Char) : Token → Bool
  | char wanted => c = wanted
  | anyChar => true
  | within set => set.any (·.holds c)
  | outside set => !set.any (·.holds c)
  | anySequence | anyDirectories => false

/-- Whether some end of a text, the whole of it included, has a property. -/
def anyEnd (property : List Char → Bool) : List Char → Bool
  | [] => property []
  | c :: rest => property (c :: rest) || anyEnd property rest

/-- Whether tokens match a name to its end. -/
def fits : List Token → List Char → Bool
  | [], name => name.isEmpty
  | .anySequence :: rest, name => anyEnd (fits rest) name
  | .anyDirectories :: rest, name => fits rest name
  | _ :: _, [] => false
  | token :: rest, c :: name => token.admits c && fits rest name

/-- A part of a pattern between slashes. -/
inductive Part where
  /-- A name without wildcards, which is followed without a look at the directory. -/
  | literal (name : String)
  | wild (tokens : List Token)
  | directories
  deriving DecidableEq, Repr

namespace Part

/-- The characters of tokens that ask for no others. -/
def plain? : List Token → Option (List Char)
  | [] => some []
  | .char c :: rest => (plain? rest).map (c :: ·)
  | _ => none

/-- The part that tokens make up. -/
def ofTokens (tokens : List Token) : Part :=
  if tokens = [.anyDirectories] then directories
  else
    match plain? tokens with
    | some name => literal (String.ofList name)
    | none => wild tokens

/-- Whether a part matches the name of an entry. -/
def fits (name : String) : Part → Bool
  | literal wanted => name = wanted
  | wild tokens => Glob.fits tokens name.toList
  | directories => false

/-- Parts with one `**` in place of several in a row. -/
def collapse : List Part → List Part
  | directories :: rest =>
    match collapse rest with
    | directories :: others => directories :: others
    | others => directories :: others
  | part :: rest => part :: collapse rest
  | [] => []

end Part

/-- A place that a walk came to, and the path under which the walk shows it. -/
structure Found where
  shown : String
  place : FilePlace

namespace Found

/-- Whether a shown path names the directory in which the walk begins. -/
def isStart (shown : String) : Bool :=
  match pathParts shown with
  | "." :: rest => rest.all staysPut
  | _ => false

/-- A path with a part behind it. -/
def join (shown part : String) : String :=
  if shown.endsWith "/" then shown ++ part else shown ++ "/" ++ part

/-- The shown path of an entry of a shown directory; entries of the start stand bare. -/
def entryPath (shown part : String) : String :=
  if isStart shown then part else join shown part

/-- One part further, if the path leads somewhere. -/
def follow? (found : Found) (part : String) : Option Found :=
  let shown := entryPath found.shown part
  if shown = "" then none
  else
    match found.place.step part with
    | .ok place => some ⟨shown, place⟩
    | .error _ => none

/-- The entries of a directory, by name. -/
def entries (found : Found) : List (String × Found) :=
  found.place.node.entries.map fun entry =>
    (entry.1, ⟨entryPath found.shown entry.1,
      ⟨entry.1 :: found.place.names, entry.2, found.place.node :: found.place.above⟩⟩)

/-- The directory around a directory and the directory itself, where the tokens ask for a point. -/
def around (found : Found) (tokens : List Token) : List Found :=
  if tokens.head? = some (.char '.') then
    ["..", "."].filterMap fun part =>
      if fits tokens part.toList then
        match found.place.step part with
        | .ok place => some ⟨join found.shown part, place⟩
        | .error _ => none
      else none
  else []

mutual

/-- Everything below a node, each directory before what is in it. -/
def belowNode (names : List String) (above : List FileNode) (shown : String) :
    FileNode → List (String × Found)
  | .file _ => []
  | .directory entries => belowEntries names (.directory entries :: above) shown entries
termination_by structural node => node

/-- The entries of a directory and everything below them. -/
def belowEntries (names : List String) (above : List FileNode) (shown : String) :
    List (String × FileNode) → List (String × Found)
  | [] => []
  | (name, node) :: rest =>
    let path := entryPath shown name
    (name, ⟨path, ⟨name :: names, node, above⟩⟩) :: belowNode (name :: names) above path node ++
      belowEntries names above shown rest
termination_by structural entries => entries

end

/-- Everything below a place, each directory before what is in it. -/
def below (found : Found) : List (String × Found) :=
  belowNode found.place.names found.place.above found.shown found.place.node

/-- Where the parts of a pattern lead, in the order of a walk. -/
def walk : List Part → Found → List Found
  | [], found => [found]
  | .literal name :: rest, found =>
    match found.follow? name with
    | some next => walk rest next
    | none => []
  | .wild tokens :: rest, found =>
    let named := found.entries.filter fun entry => fits tokens entry.1.toList
    (found.around tokens ++ named.map Prod.snd).flatMap (walk rest)
  | [.directories], found =>
    (found.below.map Prod.snd).filter (·.place.node.isDirectory)
  | .directories :: part :: rest, found =>
    (found.below.filter fun entry => part.fits entry.1).flatMap fun entry => walk rest entry.2

end Found

/-- Whether a text stands for a pattern rather than for a path. -/
def isPattern (text : String) : Bool :=
  text.toList.any fun c => c = '*' || c = '?' || c = '[' || c = '\x7b'

/-- The parts of a pattern; a slash at either end makes no further part. -/
def parts (pattern : String) : List String :=
  let parts := pathParts pattern
  let parts := if pattern.startsWith "/" then parts.drop 1 else parts
  if parts.getLast? = some "" then parts.dropLast else parts

/-- Where the walk of a pattern begins. -/
def start (disk : Disk) (pattern : String) : Except FileError Found :=
  let shown := if pattern.startsWith "/" then "/" else "."
  (disk.follow (disk.origin pattern)).map (Found.mk shown)

/--
The paths that a pattern matches. The whole of it is read first, then each part alone. With a
slash at its end it matches directories only.
-/
def expand (disk : Disk) (pattern : String) : Except Fault (List String) :=
  match read pattern.toList, (parts pattern).mapM fun part => read part.toList with
  | .error fault, _ => .error fault
  | .ok _, .error fault => .error fault
  | .ok _, .ok parts =>
    match start disk pattern with
    | .error _ => .ok []
    | .ok origin =>
      let found := Found.walk (Part.collapse (parts.map Part.ofTokens)) origin
      let wanted := if pattern.endsWith "/" then found.filter (·.place.node.isDirectory) else found
      .ok (wanted.map Found.shown)

end TypedTree.Glob
