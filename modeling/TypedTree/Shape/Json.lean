import TypedTree.Shape.Basic
import TypedTree.Json.Basic

/-!
# Shapes as documents

A scalar shape is written as its name, every other shape as an array of its name and its parts.
Reading is the inverse of writing and keeps the order of attributes.
-/

namespace TypedTree.Shape

mutual

/-- The document of a shape. -/
def toJson : Shape → Json
  | list element => .array [.text "list", toJson element]
  | set element => .array [.text "set", toJson element]
  | map element => .array [.text "map", toJson element]
  | tuple slots => .array [.text "tuple", .array (slotsToJson slots)]
  | object attributes => .array [.text "object", .object (attributesToJson attributes)]
  | shape => .text shape.kindName
termination_by structural shape => shape

/-- The documents of slots. -/
def slotsToJson : List Shape → List Json
  | [] => []
  | slot :: rest => toJson slot :: slotsToJson rest
termination_by structural slots => slots

/-- The members of attributes. -/
def attributesToJson : List (String × Shape) → List (String × Json)
  | [] => []
  | (name, shape) :: rest => (name, toJson shape) :: attributesToJson rest
termination_by structural attributes => attributes

end

/-- The scalar shape of a name. -/
def scalarNamed? (name : String) : Option Shape :=
  if name = "string" then some string
  else if name = "bool" then some bool
  else if name = "number" then some number
  else if name = "dynamic" then some dynamic
  else none

/-- The homogeneous shape of a name over an element. -/
def collectionNamed? (name : String) (element : Shape) : Option Shape :=
  if name = "list" then some (list element)
  else if name = "set" then some (set element)
  else if name = "map" then some (map element)
  else none

mutual

/-- The shape that a document writes. -/
def ofJson? : Json → Option Shape
  | .text name => scalarNamed? name
  | .array [.text name, part] =>
    match part with
    | .array slots => if name = "tuple" then (slotsOfJson? slots).map tuple else
        (ofJson? (.array slots)).bind (collectionNamed? name)
    | .object members =>
      if name = "object" then (attributesOfJson? members).map object else none
    | part => (ofJson? part).bind (collectionNamed? name)
  | _ => none
termination_by structural document => document

/-- The shapes that items write. -/
def slotsOfJson? : List Json → Option (List Shape)
  | [] => some []
  | slot :: rest =>
    match ofJson? slot, slotsOfJson? rest with
    | some slot, some rest => some (slot :: rest)
    | _, _ => none
termination_by structural slots => slots

/-- The attributes that members write. -/
def attributesOfJson? : List (String × Json) → Option (List (String × Shape))
  | [] => some []
  | (name, document) :: rest =>
    match ofJson? document, attributesOfJson? rest with
    | some shape, some rest => some ((name, shape) :: rest)
    | _, _ => none
termination_by structural members => members

end

end TypedTree.Shape
