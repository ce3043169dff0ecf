import TypedTree.Convert.Outbound
import TypedTree.Shape.Json

/-!
# The wire form of typed values

On the wire a value stands beside its shape. Unlike in a plain document a null keeps its place, so
that tuple positions and declared attributes survive.
-/

namespace TypedTree.Value

mutual

/-- The value part of the wire form, at a path. -/
def wireValue (value : Value) (path : Path) : Except ConvertError Json :=
  match value with
  | null _ => .ok .null
  | unknown _ => .error ⟨path, .unknownValue⟩
  | text value => .ok (.text value)
  | bool value => .ok (.bool value)
  | number value =>
    match value.toJson? with
    | some n => .ok (.number n)
    | none => .error ⟨path, .inexactNumber⟩
  | list _ items | tuple items =>
    match wireItems items 0 path with
    | .ok items => .ok (.array items)
    | .error error => .error error
  | set _ items =>
    match wireElements items path with
    | .ok items => .ok (.array items)
    | .error error => .error error
  | map _ entries =>
    match wireEntries entries .key path with
    | .ok members => .ok (.object members)
    | .error error => .error error
  | object entries =>
    match wireEntries entries .attr path with
    | .ok members => .ok (.object members)
    | .error error => .error error
termination_by structural value

/-- The wire forms of items from a position on. -/
def wireItems (items : List Value) (position : Nat) (path : Path) :
    Except ConvertError (List Json) :=
  match items with
  | [] => .ok []
  | item :: rest =>
    match wireValue item (path.push (.index position)) with
    | .error error => .error error
    | .ok document =>
      match wireItems rest (position + 1) path with
      | .error error => .error error
      | .ok documents => .ok (document :: documents)
termination_by structural items

/-- The wire forms of set elements. -/
def wireElements (items : List Value) (path : Path) : Except ConvertError (List Json) :=
  match items with
  | [] => .ok []
  | item :: rest =>
    match wireValue item path with
    | .error error => .error (error.throughElement path item)
    | .ok document =>
      match wireElements rest path with
      | .error error => .error error
      | .ok documents => .ok (document :: documents)
termination_by structural items

/-- The wire forms of entries under their names. -/
def wireEntries (entries : List (String × Value)) (step : String → Step) (path : Path) :
    Except ConvertError (List (String × Json)) :=
  match entries with
  | [] => .ok []
  | (name, value) :: rest =>
    match wireValue value (path.push (step name)) with
    | .error error => .error error
    | .ok document =>
      match wireEntries rest step path with
      | .error error => .error error
      | .ok documents => .ok ((name, document) :: documents)
termination_by structural entries

end

/-- The wire form of a value: its shape and its value part. -/
def encode (value : Value) : Except ConvertError Json :=
  match wireValue value .root with
  | .ok document => .ok (.object [("type", value.shape.toJson), ("value", document)])
  | .error error => .error error

end TypedTree.Value
