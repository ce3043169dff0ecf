import TypedTree.Convert.Error
import TypedTree.Decimal.Numeral
import TypedTree.Json.Basic

/-!
# From documents to typed values

A document is read under a shape. The kind of the document has to be one that the shape admits; what
the shape leaves open is inferred from the document itself, and a null takes the shape of its place.
The path of the place is carried along, and the first failure in document order ends the conversion.
-/

namespace TypedTree

/-- The kind of a document, as messages name it. -/
def Json.kindName : Json → String
  | .null => "null"
  | .bool _ => "bool"
  | .number _ => "number"
  | .text _ => "string"
  | .array _ => "sequence"
  | .object _ => "mapping"

namespace Value

/-- The error of a document whose kind the shape does not admit. -/
def mismatch (document : Json) (shape : Shape) (path : Path) : ConvertError :=
  ⟨path, .typeMismatch document.kindName shape.text⟩

/--
The shape shared by all members that are not null, `dynamic` if there are none, or the step to the
first member that differs from the ones before it.
-/
def inferElement (found : Option Shape) : List (Step × Value) → Except Step Shape
  | [] => .ok (found.getD .dynamic)
  | (step, member) :: rest =>
    if member.isNull then inferElement found rest
    else match found with
      | none => inferElement (some member.shape) rest
      | some shape => if shape == member.shape then inferElement found rest else .error step

/--
The element shape of a collection: as declared, or inferred where plain `dynamic` is declared.
-/
def unify (declared : Shape) (members : List (Step × Value)) : Except Step Shape :=
  if declared.isDynamic then inferElement none members else .ok declared

/-- Items with the steps to them. -/
def indexed (items : List Value) : List (Step × Value) :=
  items.mapIdx fun position item => (.index position, item)

/-- Map entries with the steps to them. -/
def keyed (entries : List (String × Value)) : List (Step × Value) :=
  entries.map fun entry => (.key entry.1, entry.2)

/-- A list or set, as `make` says, over the unified shape of converted items. -/
def homogeneous (make : Shape → List Value → Value) (declared : Shape) (items : List Value)
    (path : Path) : Except ConvertError Value :=
  match unify declared (indexed items) with
  | .ok element => .ok (make element (items.map (retypeNull element)))
  | .error step => .error ⟨path.push step, .inconsistentElementType⟩

/-- A map over the unified shape of converted entries. -/
def homogeneousMap (declared : Shape) (entries : List (String × Value)) (path : Path) :
    Except ConvertError Value :=
  match unify declared (keyed entries) with
  | .ok element =>
    .ok (map element (entries.map fun entry => (entry.1, entry.2.retypeNull element)))
  | .error step => .error ⟨path.push step, .inconsistentElementType⟩

/-- The shape that all items share which are not null, if there is such an item and such a shape. -/
def sharedShape? (items : List Value) : Option Shape :=
  match items.filter (!·.isNull) with
  | [] => none
  | first :: rest => if rest.all (·.shape == first.shape) then some first.shape else none

/-- The tightest value of untyped items: a list if they share a shape, a tuple if they do not. -/
def inferSequence (items : List Value) : Value :=
  match sharedShape? items with
  | some element => list element (items.map (retypeNull element))
  | none => tuple items

/-- A tuple shape of one slot stands for a sequence of any length, every item in that slot. -/
def broadcasts (slots : List Shape) (count : Nat) : Bool := slots.length == 1 && count != 1

/-- The slot for an item at a position. -/
def slotAt (slots : List Shape) (count position : Nat) : Shape :=
  (slots[if broadcasts slots count then 0 else position]?).getD .dynamic

/-- The declared attributes that are not among the entries, each as null. -/
def missingAttributes (attributes : List (String × Shape)) (entries : List (String × Value)) :
    List (String × Value) :=
  (attributes.filter fun declared => (Entries.get? entries declared.1).isNone).map
    fun declared => (declared.1, null declared.2)

mutual

/-- The typed value of a document under a shape, at a path. -/
def ofJson (document : Json) (shape : Shape) (path : Path) : Except ConvertError Value :=
  match document with
  | .null => .ok (null shape)
  | .text value =>
    match shape with
    | .string | .dynamic => .ok (text value)
    | .number =>
      match Decimal.read? value with
      | some n => .ok (number n)
      | none => .error ⟨path, .invalidNumber value⟩
    | _ => .error (mismatch document shape path)
  | .bool value =>
    match shape with
    | .bool | .dynamic => .ok (bool value)
    | _ => .error (mismatch document shape path)
  | .number value =>
    match shape with
    | .number | .dynamic =>
      match Decimal.ofJson? value with
      | some n => .ok (number n)
      | none => .error ⟨path, .inexactNumber⟩
    | _ => .error (mismatch document shape path)
  | .array items =>
    match shape with
    | .list element =>
      match itemsOfJson items (fun _ => element) 0 path with
      | .ok items => homogeneous list element items path
      | .error error => .error error
    | .set element =>
      match itemsOfJson items (fun _ => element) 0 path with
      | .ok items => homogeneous set element items path
      | .error error => .error error
    | .tuple slots =>
      if !broadcasts slots items.length && slots.length != items.length then
        let got := "sequence of " ++ toString items.length ++ " elements"
        .error ⟨path, .typeMismatch got shape.text⟩
      else
        match itemsOfJson items (slotAt slots items.length) 0 path with
        | .ok items => .ok (tuple items)
        | .error error => .error error
    | .dynamic =>
      match itemsOfJson items (fun _ => .dynamic) 0 path with
      | .ok items => .ok (inferSequence items)
      | .error error => .error error
    | _ => .error (mismatch document shape path)
  | .object members =>
    match shape with
    | .object attributes =>
      match membersOfJson members .attr (Entries.get? attributes) path with
      | .ok entries => .ok (object (entries ++ missingAttributes attributes entries))
      | .error error => .error error
    | .map element =>
      match membersOfJson members .key (fun _ => some element) path with
      | .ok entries => homogeneousMap element entries path
      | .error error => .error error
    | .dynamic =>
      match membersOfJson members .attr (fun _ => some .dynamic) path with
      | .ok entries => .ok (object entries)
      | .error error => .error error
    | _ => .error (mismatch document shape path)
termination_by structural document

/-- The typed values of items from a position on, each under the shape of its slot. -/
def itemsOfJson (items : List Json) (slot : Nat → Shape) (position : Nat) (path : Path) :
    Except ConvertError (List Value) :=
  match items with
  | [] => .ok []
  | item :: rest =>
    match ofJson item (slot position) (path.push (.index position)) with
    | .error error => .error error
    | .ok value =>
      match itemsOfJson rest slot (position + 1) path with
      | .error error => .error error
      | .ok values => .ok (value :: values)
termination_by structural items

/-- The typed values of members, each under the shape that its name has. -/
def membersOfJson (members : List (String × Json)) (step : String → Step)
    (slot : String → Option Shape) (path : Path) : Except ConvertError (List (String × Value)) :=
  match members with
  | [] => .ok []
  | (name, member) :: rest =>
    match slot name with
    | none => .error ⟨path.push (step name), .unexpectedAttribute⟩
    | some shape =>
      match ofJson member shape (path.push (step name)) with
      | .error error => .error error
      | .ok value =>
        match membersOfJson rest step slot path with
        | .error error => .error error
        | .ok values => .ok ((name, value) :: values)
termination_by structural members

end

end Value
end TypedTree
