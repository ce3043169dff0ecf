import TypedTree.Json.Basic

/-!
# Schema nodes

A node is the part of a JSON schema that decides about shapes: a reference, a type, the parts of
arrays and objects, and the Kubernetes extensions. Everything else that a schema may say is left out
of the model. A node is written back with the fields it has, in one fixed order.
-/

namespace TypedTree.Schema

/-- The resource kind that a definition describes. -/
structure GroupVersionKind where
  group : String
  version : String
  kind : String
  deriving DecidableEq, Repr, Inhabited

/-- What an object may hold beyond its named properties. -/
inductive Additional (α : Type) where
  /-- Any value, or none. -/
  | allowed (permitted : Bool)
  /-- Values of a schema. -/
  | schema (node : α)
  deriving Repr

/-- A node of a schema document. -/
structure Node where
  reference : Option String := none
  kind : Option String := none
  format : Option String := none
  items : Option Node := none
  additionalItems : Option Node := none
  properties : List (String × Node) := []
  additionalProperties : Option (Additional Node) := none
  allOf : List Node := []
  intOrString : Bool := false
  preserveUnknown : Bool := false
  kinds : List GroupVersionKind := []
  deriving Inhabited

/-- The fields of a node, in the order in which they are written. -/
inductive Field where
  | reference
  | kind
  | format
  | items
  | additionalItems
  | properties
  | additionalProperties
  | allOf
  | intOrString
  | preserveUnknown
  | kinds
  deriving DecidableEq, Repr

namespace Field

/-- The key of a field. -/
def name : Field → String
  | reference => "$ref"
  | kind => "type"
  | format => "format"
  | items => "items"
  | additionalItems => "additionalItems"
  | properties => "properties"
  | additionalProperties => "additionalProperties"
  | allOf => "allOf"
  | intOrString => "x-kubernetes-int-or-string"
  | preserveUnknown => "x-kubernetes-preserve-unknown-fields"
  | kinds => "x-kubernetes-group-version-kind"

/-- All fields in order. -/
def all : List Field :=
  [reference, kind, format, items, additionalItems, properties, additionalProperties, allOf,
    intOrString, preserveUnknown, kinds]

/-- The field of a key; a node has no other keys. -/
def ofName? (key : String) : Option Field := all.find? (·.name == key)

end Field

namespace Node

/-- A node that says only its type. -/
def ofType (kind : String) : Node := { kind := some kind }

/-- A node that refers to a definition of the document by its identifier. -/
def referenceTo (id : String) : Node := { reference := some ("#/definitions/" ++ id) }

/-- The node with an item schema. -/
def withItems (node items : Node) : Node := { node with items := some items }

/-- The node with a schema for items of any position. -/
def withAdditionalItems (node items : Node) : Node := { node with additionalItems := some items }

/-- The node with a property; one of that name is replaced in its place. -/
def withProperty (node : Node) (name : String) (property : Node) : Node :=
  { node with properties := Entries.put node.properties name property }

/-- The node with a schema for values beyond its properties. -/
def withAdditionalProperties (node values : Node) : Node :=
  { node with additionalProperties := some (.schema values) }

/-- The schema of values beyond the properties: any value where they are allowed without one. -/
def mapValues? (node : Node) : Option Node :=
  match node.additionalProperties with
  | none | some (.allowed false) => none
  | some (.allowed true) => some {}
  | some (.schema values) => some values

/-- The type; an empty one counts as none. -/
def declaredKind? (node : Node) : Option String := node.kind.filter (· != "")

end Node

/-- A member for a field that is present. -/
def memberOf (field : Field) (document : Option Json) : List (String × Json) :=
  (document.map fun document => (field.name, document)).toList

/-- The array of a field, if it has any items. -/
def arrayOf (items : List Json) : Option Json := if items.isEmpty then none else some (.array items)

/-- The object of a field, if it has any members. -/
def objectOf (members : List (String × Json)) : Option Json :=
  if members.isEmpty then none else some (.object members)

/-- The value of a flag, if it is set. -/
def flagOf (flag : Bool) : Option Json := if flag then some (.bool true) else none

/-- The document of a resource kind. -/
def GroupVersionKind.toJson (tag : GroupVersionKind) : Json :=
  .object [("group", .text tag.group), ("version", .text tag.version), ("kind", .text tag.kind)]

namespace Node

mutual

/-- The document of a node: the fields that it has, in order. -/
def toJson : Node → Json
  | ⟨reference, kind, format, items, additionalItems, properties, additionalProperties, allOf,
      intOrString, preserveUnknown, kinds⟩ =>
    .object (memberOf .reference (reference.map .text) ++ memberOf .kind (kind.map .text) ++
      memberOf .format (format.map .text) ++ memberOf .items (optionalToJson items) ++
      memberOf .additionalItems (optionalToJson additionalItems) ++
      memberOf .properties (objectOf (tableToJson properties)) ++
      memberOf .additionalProperties (additionalToJson additionalProperties) ++
      memberOf .allOf (arrayOf (listToJson allOf)) ++ memberOf .intOrString (flagOf intOrString) ++
      memberOf .preserveUnknown (flagOf preserveUnknown) ++
      memberOf .kinds (arrayOf (kinds.map GroupVersionKind.toJson)))
termination_by structural node => node

/-- The document of a node that may be absent. -/
def optionalToJson : Option Node → Option Json
  | none => none
  | some node => some (toJson node)
termination_by structural node => node

/-- The members of named nodes. -/
def tableToJson : List (String × Node) → List (String × Json)
  | [] => []
  | (name, node) :: rest => (name, toJson node) :: tableToJson rest
termination_by structural table => table

/-- The document of what may stand beyond the properties; a refusal is written, too. -/
def additionalToJson : Option (Additional Node) → Option Json
  | none => none
  | some (.allowed permitted) => some (.bool permitted)
  | some (.schema node) => some (toJson node)
termination_by structural additional => additional

/-- The documents of nodes. -/
def listToJson : List Node → List Json
  | [] => []
  | node :: rest => toJson node :: listToJson rest
termination_by structural nodes => nodes

end

end Node
end TypedTree.Schema
