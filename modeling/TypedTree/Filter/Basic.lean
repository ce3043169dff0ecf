import TypedTree.Json.Basic

/-!
# Filters

A filter turns a document into any number of documents, in order. It may also fail, and then what
it gave before the failure still counts. In a pipe each output of the left side is an input of the
right one; a comma puts the outputs of both sides one behind the other.
-/

namespace TypedTree

/-- A jq filter. -/
inductive Filter where
  /-- The input itself. -/
  | identity
  /-- The member of an object under a name. -/
  | field (name : String)
  /-- The item of an array at a position, from the end if it is negative. -/
  | index (position : Int)
  /-- Every item of an array or value of an object. -/
  | each
  | pipe (left right : Filter)
  | comma (left right : Filter)
  /-- No output. -/
  | empty
  /-- A failure. -/
  | error
  /-- The same output for every input. -/
  | literal (document : Json)
  /-- A name without a definition. -/
  | undefined (name : String)
  deriving Inhabited

/-- What a filter gave, and whether it failed then. -/
structure Filter.Outputs where
  documents : List Json
  failed : Bool := false

namespace Filter

namespace Outputs

/-- A single output. -/
def one (document : Json) : Outputs := ⟨[document], false⟩

/-- No output, and a failure. -/
def failure : Outputs := ⟨[], true⟩

/-- Further outputs, unless the first ones end in a failure. -/
def append (first second : Outputs) : Outputs :=
  if first.failed then first else ⟨first.documents ++ second.documents, second.failed⟩

/-- The outputs for each of some documents, up to the first failure. -/
def forEach (next : Json → Outputs) : List Json → Outputs
  | [] => ⟨[], false⟩
  | document :: rest => (next document).append (forEach next rest)

/-- The outputs for each output; a failure comes behind them. -/
def andThen (outputs : Outputs) (next : Json → Outputs) : Outputs :=
  (forEach next outputs.documents).append ⟨[], outputs.failed⟩

end Outputs

/-- The item at a position, from the end if it is negative; beyond the ends there is null. -/
def itemAt (items : List Json) (position : Int) : Json :=
  let fromStart := if position < 0 then position + items.length else position
  if fromStart < 0 then .null else (items[fromStart.toNat]?).getD .null

/-- The member of an object under a name; an absent one is null, and nothing else has members. -/
def memberOf (name : String) : Json → Outputs
  | .object members => .one ((Entries.get? members name).getD .null)
  | _ => .failure

/-- Whether a number can be a position: its magnitude has to lie below the bound of 64-bit words. -/
def isPosition (number : Int) : Bool := decide (number.natAbs < Decimal.int64Bound)

/-- The item of an array at a position; nothing else has items. -/
def itemOf (position : Int) : Json → Outputs
  | .array items => if isPosition position then .one (itemAt items position) else .failure
  | _ => .failure

/-- The items of an array or the values of an object. -/
def contents : Json → Outputs
  | .array items => ⟨items, false⟩
  | .object members => ⟨members.map Prod.snd, false⟩
  | _ => .failure

/-- The outputs of a filter for a document. -/
def run : Filter → Json → Outputs
  | identity, document => .one document
  | field name, document => memberOf name document
  | index position, document => itemOf position document
  | each, document => contents document
  | pipe left right, document => (left.run document).andThen right.run
  | comma left right, document => (left.run document).append (right.run document)
  | empty, _ => ⟨[], false⟩
  | error, _ => .failure
  | literal output, _ => .one output
  | undefined _, _ => .failure

/-- The undefined names of a filter, one for each place at which they stand. -/
def undefinedNames : Filter → List String
  | pipe left right | comma left right => left.undefinedNames ++ right.undefinedNames
  | undefined name => [name]
  | _ => []

end Filter
end TypedTree
