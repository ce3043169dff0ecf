import TypedTree.Schema.Node

/-!
# Substituted definitions

The published schemas of some Kubernetes definitions cannot be resolved as they stand. A reference
to one of these is answered by a fixed node, whether the document defines it or not, or by an
adapted copy of the definition.
-/

namespace TypedTree.Schema

/-- What stands in for a definition. -/
inductive Substitution where
  /-- This node. -/
  | fixed (node : Node)
  /-- The definition, adapted. -/
  | adapted (adapt : Node → Node)

namespace Substitution

/-- The parts that the identifiers of substituted definitions begin with. -/
def utilities : String := "io.k8s.apimachinery.pkg."

/-- The group of definitions that describe schemas themselves. -/
def extensions : String := "io.k8s.apiextensions-apiserver.pkg.apis.apiextensions.v1."

/-- Definitions that admit any value, since their form differs from instance to instance. -/
def ofAnyShape : List String :=
  [utilities ++ "util.intstr.IntOrString", utilities ++ "runtime.RawExtension",
    extensions ++ "JSON", extensions ++ "JSONSchemaProps", extensions ++ "JSONSchemaPropsOrArray",
    extensions ++ "JSONSchemaPropsOrBool"]

/-- Definitions that are written as strings. -/
def ofStringShape : List String :=
  [utilities ++ "api.resource.Quantity", utilities ++ "apis.meta.v1.Time",
    utilities ++ "apis.meta.v1.MicroTime"]

/-- The definition in which a list of names stands beside a map of schemas. -/
def namesOrSchemas : String := extensions ++ "JSONSchemaPropsOrStringArray"

/-- The item schema of the property `Property`. -/
def itemOfProperty? (definition : Node) : Option Node :=
  (Entries.get? definition.properties "Property").bind Node.items

/--
A definition whose property `Schema` is read as a map of what the items of its property `Property`
are; it is an object if it does not say what it is.
-/
def schemaAsMap (definition : Node) : Node :=
  let kind := if definition.declaredKind?.isNone then some "object" else definition.kind
  let properties :=
    match itemOfProperty? definition, Entries.get? definition.properties "Schema" with
    | some item, some _ =>
      Entries.put definition.properties "Schema"
        ((Node.ofType "object").withAdditionalProperties item)
    | _, _ => definition.properties
  { definition with kind, properties }

/-- What stands in for the definition of an identifier, if anything does. -/
def forId? (id : String) : Option Substitution :=
  if id ∈ ofAnyShape then some (.fixed {})
  else if id ∈ ofStringShape then some (.fixed (.ofType "string"))
  else if id = namesOrSchemas then some (.adapted schemaAsMap)
  else none

end Substitution
end TypedTree.Schema
