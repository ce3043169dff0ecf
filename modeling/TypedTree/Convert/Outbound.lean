import TypedTree.Convert.Error
import TypedTree.Decimal.Word
import TypedTree.Json.Basic

/-!
# From typed values to documents

A null leaves no trace in a document: it is left out of the collection around it, and a collection
that loses all of its members that way is left out too. An unknown value and a number that no
document number denotes exactly end the conversion.
-/

namespace TypedTree

/-- An integer goes out as a signed 64-bit word and any other number as a double, both exactly. -/
def Decimal.toJson? (n : Decimal) : Option Json.Number :=
  if n.isInteger then n.toInt64?.map .int else n.toBinary64?.map .float

namespace Value

/-- A sequence of `total` members of which some were kept; it is absent if it lost all of them. -/
def keepArray (total : Nat) (kept : List Json) : Option Json :=
  if total == 0 || !kept.isEmpty then some (.array kept) else none

/-- A mapping of `total` members of which some were kept; it is absent if it lost all of them. -/
def keepObject (total : Nat) (kept : List (String × Json)) : Option Json :=
  if total == 0 || !kept.isEmpty then some (.object kept) else none

mutual

/-- The document of a typed value at a path; `none` if the value is absent from documents. -/
def toJson? (value : Value) (path : Path) : Except ConvertError (Option Json) :=
  match value with
  | null _ => .ok none
  | unknown _ => .error ⟨path, .unknownValue⟩
  | text value => .ok (some (.text value))
  | bool value => .ok (some (.bool value))
  | number value =>
    match value.toJson? with
    | some n => .ok (some (.number n))
    | none => .error ⟨path, .inexactNumber⟩
  | list _ items | tuple items =>
    match itemsToJson items 0 path with
    | .ok kept => .ok (keepArray items.length kept)
    | .error error => .error error
  | set _ items =>
    match elementsToJson items path with
    | .ok kept => .ok (keepArray items.length kept)
    | .error error => .error error
  | map _ entries =>
    match entriesToJson entries .key path with
    | .ok kept => .ok (keepObject entries.length kept)
    | .error error => .error error
  | object entries =>
    match entriesToJson entries .attr path with
    | .ok kept => .ok (keepObject entries.length kept)
    | .error error => .error error
termination_by structural value

/-- The documents of items from a position on, without the absent ones. -/
def itemsToJson (items : List Value) (position : Nat) (path : Path) :
    Except ConvertError (List Json) :=
  match items with
  | [] => .ok []
  | item :: rest =>
    match toJson? item (path.push (.index position)) with
    | .error error => .error error
    | .ok kept =>
      match itemsToJson rest (position + 1) path with
      | .error error => .error error
      | .ok others => .ok (kept.toList ++ others)
termination_by structural items

/-- The documents of set elements, without the absent ones. -/
def elementsToJson (items : List Value) (path : Path) : Except ConvertError (List Json) :=
  match items with
  | [] => .ok []
  | item :: rest =>
    match toJson? item path with
    | .error error => .error (error.throughElement path item)
    | .ok kept =>
      match elementsToJson rest path with
      | .error error => .error error
      | .ok others => .ok (kept.toList ++ others)
termination_by structural items

/-- The documents of entries under their names, without the absent ones. -/
def entriesToJson (entries : List (String × Value)) (step : String → Step) (path : Path) :
    Except ConvertError (List (String × Json)) :=
  match entries with
  | [] => .ok []
  | (name, value) :: rest =>
    match toJson? value (path.push (step name)) with
    | .error error => .error error
    | .ok kept =>
      match entriesToJson rest step path with
      | .error error => .error error
      | .ok others => .ok (kept.toList.map (fun document => (name, document)) ++ others)
termination_by structural entries

end

end Value
end TypedTree
