import TypedTree.Entries

/-!
# Shapes

A shape says what values look like: scalars, homogeneous lists, sets and maps, tuples of fixed
arity, and objects with named attributes. `dynamic` is the shape of every value. The attributes of
an object keep their order for output, and the order takes no part in equality or acceptance.
-/

namespace TypedTree

/-- The shape of a value. -/
inductive Shape where
  | string
  | bool
  /-- Integers and fractions alike. -/
  | number
  /-- Any value at all. -/
  | dynamic
  | list (element : Shape)
  | tuple (slots : List Shape)
  | set (element : Shape)
  | map (element : Shape)
  | object (attributes : List (String × Shape))
  deriving Inhabited, Repr

namespace Shape

mutual

/-- Equality of shapes; the attributes of an object are compared by name. -/
def beq : Shape → Shape → Bool
  | string, string => true
  | bool, bool => true
  | number, number => true
  | dynamic, dynamic => true
  | list a, list b => beq a b
  | set a, set b => beq a b
  | map a, map b => beq a b
  | tuple as, tuple bs => beqSlots as bs
  | object as, object bs => as.length == bs.length && beqAttributes as bs
  | _, _ => false
termination_by structural shape => shape

/-- Slots are compared one by one. -/
def beqSlots : List Shape → List Shape → Bool
  | [], [] => true
  | a :: as, b :: bs => beq a b && beqSlots as bs
  | _, _ => false
termination_by structural slots => slots

/-- Every attribute on the left has an equal one of its name on the right. -/
def beqAttributes : List (String × Shape) → List (String × Shape) → Bool
  | [], _ => true
  | (name, a) :: as, bs =>
    (match Entries.get? bs name with
      | some b => beq a b
      | none => false) && beqAttributes as bs
termination_by structural attributes => attributes

end

instance : BEq Shape := ⟨beq⟩

mutual

/--
Whether a declared shape admits values of another shape. `dynamic` admits every shape; otherwise the
kinds agree and the parts admit each other, with tuple arity and attribute names fixed.
-/
def accepts : Shape → Shape → Bool
  | dynamic, _ => true
  | string, string => true
  | bool, bool => true
  | number, number => true
  | list a, list b => accepts a b
  | set a, set b => accepts a b
  | map a, map b => accepts a b
  | tuple as, tuple bs => acceptsSlots as bs
  | object as, object bs => as.length == bs.length && acceptsAttributes as bs
  | _, _ => false
termination_by structural shape => shape

/-- Slots admit each other one by one. -/
def acceptsSlots : List Shape → List Shape → Bool
  | [], [] => true
  | a :: as, b :: bs => accepts a b && acceptsSlots as bs
  | _, _ => false
termination_by structural slots => slots

/-- Every declared attribute admits the one of its name. -/
def acceptsAttributes : List (String × Shape) → List (String × Shape) → Bool
  | [], _ => true
  | (name, a) :: as, bs =>
    (match Entries.get? bs name with
      | some b => accepts a b
      | none => false) && acceptsAttributes as bs
termination_by structural attributes => attributes

end

/-- Whether a shape is `dynamic` itself. -/
def isDynamic : Shape → Bool
  | dynamic => true
  | _ => false

mutual

/-- Whether `dynamic` stands anywhere in a shape. -/
def hasDynamic : Shape → Bool
  | dynamic => true
  | string | bool | number => false
  | list element | set element | map element => hasDynamic element
  | tuple slots => anyDynamic slots
  | object attributes => anyAttributeDynamic attributes
termination_by structural shape => shape

/-- Whether `dynamic` stands in one of the slots. -/
def anyDynamic : List Shape → Bool
  | [] => false
  | slot :: rest => hasDynamic slot || anyDynamic rest
termination_by structural slots => slots

/-- Whether `dynamic` stands in one of the attributes. -/
def anyAttributeDynamic : List (String × Shape) → Bool
  | [] => false
  | (_, shape) :: rest => hasDynamic shape || anyAttributeDynamic rest
termination_by structural attributes => attributes

end

/-- The name of the outermost form. -/
def kindName : Shape → String
  | string => "string"
  | bool => "bool"
  | number => "number"
  | dynamic => "dynamic"
  | list _ => "list"
  | tuple _ => "tuple"
  | set _ => "set"
  | map _ => "map"
  | object _ => "object"

/-- The shape of the elements of a list, set or map. -/
def element? : Shape → Option Shape
  | list element | set element | map element => some element
  | _ => none

/-- The shape of a named attribute of an object. -/
def attribute? (name : String) : Shape → Option Shape
  | object attributes => Entries.get? attributes name
  | _ => none

mutual

/-- The text of a shape. -/
def text : Shape → String
  | list element => "list(" ++ text element ++ ")"
  | set element => "set(" ++ text element ++ ")"
  | map element => "map(" ++ text element ++ ")"
  | tuple slots => "tuple([" ++ ", ".intercalate (slotTexts slots) ++ "])"
  | object attributes =>
    "object(\x7b" ++ ", ".intercalate (attributeTexts attributes) ++ "\x7d)"
  | shape => shape.kindName
termination_by structural shape => shape

/-- The texts of slots. -/
def slotTexts : List Shape → List String
  | [] => []
  | slot :: rest => text slot :: slotTexts rest
termination_by structural slots => slots

/-- The texts of attributes, name first. -/
def attributeTexts : List (String × Shape) → List String
  | [] => []
  | (name, shape) :: rest => (name ++ "=" ++ text shape) :: attributeTexts rest
termination_by structural attributes => attributes

end

instance : ToString Shape := ⟨text⟩

end Shape
end TypedTree
