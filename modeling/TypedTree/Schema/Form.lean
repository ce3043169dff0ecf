import TypedTree.Schema.Reference
import TypedTree.Schema.Substitution
import TypedTree.Path

/-!
# The form of a node

Before anything below a node is looked at, the node has a form: its shape is settled, or it is the
shape of another node, or it is built from the shapes of parts, or the node is at fault. A reference
decides before everything else that a node says, then `allOf`, then the int-or-string mark, then the
type.
-/

namespace TypedTree.Schema

/-- Why a node has no shape. -/
inductive Unsupported where
  | severalMembers (count : Nat)
  | unknownType (name : String)
  | itemsAndAdditionalItems
  | noItems
  | propertiesAndValues
  deriving DecidableEq, Repr

/-- Why a node cannot be resolved. -/
inductive SchemaError.Cause where
  | unknownReference (reference : String)
  | recursionOverrun
  | unsupportedShape (reason : Unsupported)
  deriving DecidableEq, Repr

/-- A resolution error: the place in the shape, and the cause. -/
structure SchemaError where
  path : Path
  cause : SchemaError.Cause

/-- The wording of a reason. -/
def Unsupported.message : Unsupported → String
  | severalMembers count => "allOf with " ++ toString count ++ " members"
  | unknownType name => "unknown type " ++ Text.quoted name
  | itemsAndAdditionalItems => "array declares both items and additionalItems"
  | noItems => "array declares neither items nor additionalItems"
  | propertiesAndValues => "object declares both properties and additionalProperties"

/-- The wording of a cause. -/
def SchemaError.Cause.message : SchemaError.Cause → String
  | unknownReference reference => "unknown schema reference " ++ Text.quoted reference
  | recursionOverrun => "schema recursion exceeded the depth budget"
  | unsupportedShape reason => "unsupported schema shape: " ++ reason.message

/-- The text of an error: its place, then its wording. -/
def SchemaError.text (error : SchemaError) : String :=
  error.path.text ++ ": " ++ error.cause.message

/-- What decides about the shape of a node. -/
inductive Form where
  /-- The shape is known. -/
  | settled (shape : Shape)
  /-- The shape is that of another node. -/
  | same (node : Node)
  /-- A list of what the items are. -/
  | list (items : Node)
  /-- A sequence of any length in which every item is of one shape. -/
  | sequence (items : Node)
  /-- A map of what the values are. -/
  | map (values : Node)
  /-- An object with the given attributes. -/
  | object (properties : List (String × Node))
  /-- The node is at fault. -/
  | fault (cause : SchemaError.Cause)

namespace Form

/-- The form of a reference. -/
def ofReference (definitions : List (String × Node)) (reference : String) : Form :=
  let id := Reference.target reference
  match Substitution.forId? id, Entries.get? definitions id with
  | some (.fixed node), _ => same node
  | some (.adapted adapt), some definition => same (adapt definition)
  | none, some definition => same definition
  | _, none => fault (.unknownReference reference)

/-- The form of an array. -/
def ofArray (node : Node) : Form :=
  match node.items, node.additionalItems with
  | some items, none => list items
  | none, some items => sequence items
  | some _, some _ => fault (.unsupportedShape .itemsAndAdditionalItems)
  | none, none => fault (.unsupportedShape .noItems)

/-- The form of an object; without properties and values it is known only per instance. -/
def ofObject (node : Node) : Form :=
  if node.preserveUnknown then settled .dynamic
  else match node.properties, node.mapValues? with
    | [], none => settled .dynamic
    | [], some values => map values
    | properties, none => object properties
    | _, some _ => fault (.unsupportedShape .propertiesAndValues)

/-- The form of a node that refers to no other. -/
def ofKind (node : Node) : Form :=
  match node.declaredKind? with
  | none => settled .dynamic
  | some "string" => settled .string
  | some "boolean" => settled .bool
  | some "number" => settled .number
  | some "integer" => settled .number
  | some "array" => ofArray node
  | some "object" => ofObject node
  | some name => fault (.unsupportedShape (.unknownType name))

end Form

/-- The form of a node of a document with the given definitions. -/
def Node.form (definitions : List (String × Node)) (node : Node) : Form :=
  match node.reference, node.allOf with
  | some reference, _ => .ofReference definitions reference
  | none, [only] => .same only
  | none, [] => if node.intOrString then .settled .dynamic else .ofKind node
  | none, members => .fault (.unsupportedShape (.severalMembers members.length))

end TypedTree.Schema
