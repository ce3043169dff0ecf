import TypedTree.Shape.Basic
import TypedTree.Decimal.Layout
import TypedTree.Text.Quoted

/-!
# Typed values

A typed value is known, unknown or null, and always has a shape. A list, set or map carries the
shape of its elements; the shape of a tuple or object is read off its members. Sets are multisets:
neither the order of their elements nor that of the entries of maps and objects takes part in
equality.
-/

namespace TypedTree

/-- A value with its shape. -/
inductive Value where
  /-- No value, where one of the given shape may stand. -/
  | null (shape : Shape)
  /-- A value of the given shape that is not known yet. -/
  | unknown (shape : Shape)
  | text (value : String)
  | bool (value : Bool)
  | number (value : Decimal)
  | list (element : Shape) (items : List Value)
  | tuple (items : List Value)
  | set (element : Shape) (items : List Value)
  | map (element : Shape) (entries : List (String × Value))
  | object (entries : List (String × Value))
  deriving Inhabited

namespace Value

mutual

/-- The shape of a value. -/
def shape : Value → Shape
  | null shape => shape
  | unknown shape => shape
  | text _ => .string
  | bool _ => .bool
  | number _ => .number
  | list element _ => .list element
  | tuple items => .tuple (itemShapes items)
  | set element _ => .set element
  | map element _ => .map element
  | object entries => .object (entryShapes entries)
termination_by structural value => value

/-- The shapes of items. -/
def itemShapes : List Value → List Shape
  | [] => []
  | item :: rest => shape item :: itemShapes rest
termination_by structural items => items

/-- The shapes of entries under their names. -/
def entryShapes : List (String × Value) → List (String × Shape)
  | [] => []
  | (name, value) :: rest => (name, shape value) :: entryShapes rest
termination_by structural entries => entries

end

/-- Removes the first item that satisfies a test; `none` if there is none. -/
def removeFirst? {α : Type} (test : α → Bool) : List α → Option (List α)
  | [] => none
  | item :: rest =>
    if test item then some rest else (removeFirst? test rest).map (item :: ·)

mutual

/-- Equality of typed values: same state, same shape, equal members. -/
def beq : Value → Value → Bool
  | null a, null b => a == b
  | unknown a, unknown b => a == b
  | text a, text b => a == b
  | bool a, bool b => a == b
  | number a, number b => a == b
  | list a as, list b bs => a == b && beqItems as bs
  | tuple as, tuple bs => beqItems as bs
  | set a as, set b bs => a == b && as.length == bs.length && beqUnordered as bs
  | map a as, map b bs => a == b && as.length == bs.length && beqEntries as bs
  | object as, object bs => as.length == bs.length && beqEntries as bs
  | _, _ => false
termination_by structural value => value

/-- Items are compared one by one. -/
def beqItems : List Value → List Value → Bool
  | [], [] => true
  | a :: as, b :: bs => beq a b && beqItems as bs
  | _, _ => false
termination_by structural items => items

/-- Each item on the left takes the first equal one that is still free on the right. -/
def beqUnordered : List Value → List Value → Bool
  | [], _ => true
  | a :: as, bs =>
    match removeFirst? (beq a) bs with
    | some bs => beqUnordered as bs
    | none => false
termination_by structural items => items

/-- Every entry on the left has an equal one of its name on the right. -/
def beqEntries : List (String × Value) → List (String × Value) → Bool
  | [], _ => true
  | (name, a) :: as, bs =>
    (match Entries.get? bs name with
      | some b => beq a b
      | none => false) && beqEntries as bs
termination_by structural entries => entries

end

instance : BEq Value := ⟨beq⟩

/-- Whether a value is null. -/
def isNull : Value → Bool
  | null _ => true
  | _ => false

/-- Whether a value is unknown. -/
def isUnknown : Value → Bool
  | unknown _ => true
  | _ => false

/-- A value is known when it is neither null nor unknown. -/
def isKnown (value : Value) : Bool := !value.isNull && !value.isUnknown

/-- The text of a known string. -/
def text? : Value → Option String
  | text value => some value
  | _ => none

/-- The truth value of a known boolean. -/
def bool? : Value → Option Bool
  | bool value => some value
  | _ => none

/-- The decimal of a known number. -/
def number? : Value → Option Decimal
  | number value => some value
  | _ => none

/-- The items of a known list, tuple or set. -/
def items? : Value → Option (List Value)
  | list _ items | tuple items | set _ items => some items
  | _ => none

/-- The entries of a known map or object. -/
def entries? : Value → Option (List (String × Value))
  | map _ entries | object entries => some entries
  | _ => none

/-- The value under a name of a known map or object. -/
def get? (value : Value) (name : String) : Option Value :=
  value.entries?.bind fun entries => Entries.get? entries name

/-- A null takes the given shape; every other value keeps its own. -/
def retypeNull (shape : Shape) : Value → Value
  | null _ => null shape
  | value => value

mutual

/--
Whether every member, at any depth, has a shape that the collection around it admits. The slots of a
tuple and the attributes of an object are the shapes of their members, so those always fit.
-/
def conforms : Value → Bool
  | list element items | set element items => allFit element items
  | map element entries => allEntriesFit element entries
  | tuple items => allConform items
  | object entries => allEntriesConform entries
  | _ => true
termination_by structural value => value

/-- Whether every item conforms and has a shape that the element shape admits. -/
def allFit (element : Shape) : List Value → Bool
  | [] => true
  | item :: rest => element.accepts item.shape && conforms item && allFit element rest
termination_by structural items => items

/-- Whether every entry conforms and has a shape that the element shape admits. -/
def allEntriesFit (element : Shape) : List (String × Value) → Bool
  | [] => true
  | (_, value) :: rest =>
    element.accepts value.shape && conforms value && allEntriesFit element rest
termination_by structural entries => entries

/-- Whether every item conforms. -/
def allConform : List Value → Bool
  | [] => true
  | item :: rest => conforms item && allConform rest
termination_by structural items => items

/-- Whether every entry conforms. -/
def allEntriesConform : List (String × Value) → Bool
  | [] => true
  | (_, value) :: rest => conforms value && allEntriesConform rest
termination_by structural entries => entries

end

mutual

/-- The text of a value for messages. -/
def render : Value → String
  | null _ => "null"
  | unknown _ => "(unknown)"
  | text value => Text.quoted value
  | bool value => if value then "true" else "false"
  | number value => value.text
  | list _ items | tuple items | set _ items => "[" ++ ", ".intercalate (renderItems items) ++ "]"
  | map _ entries | object entries =>
    "\x7b" ++ ", ".intercalate (renderEntries entries) ++ "\x7d"
termination_by structural value => value

/-- The texts of items. -/
def renderItems : List Value → List String
  | [] => []
  | item :: rest => render item :: renderItems rest
termination_by structural items => items

/-- The texts of entries, each with its bare name. -/
def renderEntries : List (String × Value) → List String
  | [] => []
  | (name, value) :: rest => (name ++ " = " ++ render value) :: renderEntries rest
termination_by structural entries => entries

end

instance : ToString Value := ⟨render⟩

end Value
end TypedTree
