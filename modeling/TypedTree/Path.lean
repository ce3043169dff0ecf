import TypedTree.Value.Basic

/-!
# Paths

A path leads from the root of a document or value to a place inside it, one step at a time. The
elements of a set have no position and are addressed by their own value.
-/

namespace TypedTree

/-- One step of a path. -/
inductive Step where
  /-- Into the named attribute of an object. -/
  | attr (name : String)
  /-- To a position in a list or tuple. -/
  | index (position : Nat)
  /-- To the entry of a map under a key. -/
  | key (name : String)
  /-- To an element of a set. -/
  | element (value : Value)
  deriving Inhabited

namespace Step

/-- Steps are equal when they are of one kind and address the same place. -/
def beq : Step → Step → Bool
  | attr a, attr b => a == b
  | index a, index b => a == b
  | key a, key b => a == b
  | element a, element b => a == b
  | _, _ => false

instance : BEq Step := ⟨beq⟩

/-- The text of a step behind another one; an attribute is set off by a point. -/
def text : Step → String
  | attr name => "." ++ name
  | index position => "[" ++ toString position ++ "]"
  | key name => "[" ++ Text.quoted name ++ "]"
  | element value => "[" ++ value.render ++ "]"

/-- The text of a step at the front of a path, where an attribute stands bare. -/
def leadingText : Step → String
  | attr name => name
  | step => step.text

end Step

/-- The steps from the root outwards. -/
structure Path where
  steps : List Step
  deriving Inhabited

namespace Path

/-- The path without steps. -/
def root : Path := ⟨[]⟩

/-- The path one step further. -/
def push (path : Path) (step : Step) : Path := ⟨path.steps ++ [step]⟩

/-- The number of steps. -/
def length (path : Path) : Nat := path.steps.length

/-- Only the root has no steps. -/
def isRoot (path : Path) : Bool := path.steps.isEmpty

/-- The last step; the root has none. -/
def last? (path : Path) : Option Step := path.steps.getLast?

/-- The path without its last step; the root has no parent. -/
def parent? (path : Path) : Option Path :=
  if path.isRoot then none else some ⟨path.steps.dropLast⟩

/-- The path with a step put in behind its first `depth` steps, or at the end if it is shorter. -/
def insertedAt (path : Path) (depth : Nat) (step : Step) : Path :=
  ⟨path.steps.take depth ++ step :: path.steps.drop depth⟩

/-- Paths are equal when their steps are. -/
def beq (a b : Path) : Bool := a.steps == b.steps

instance : BEq Path := ⟨beq⟩

/-- The text of a path. -/
def text (path : Path) : String :=
  match path.steps with
  | [] => "<root>"
  | first :: rest => first.leadingText ++ String.join (rest.map Step.text)

instance : ToString Path := ⟨text⟩

end Path
end TypedTree
