import Mathlib
import TypedTree.Proofs.Convert.Leaving
import TypedTree.Proofs.Convert.Wiring

/-!
# Plain documents and wire forms

The plain document of a value is the value part of its wire form, pruned: where the one has nothing
for a null of the value, the other has null. The two conversions fail together, at the same place
and for the same cause, since both stop at the first value that has no document.
-/

namespace TypedTree.Value

/-- The plain document of a value is what remains of its wire form. -/
abbrev Prunes (value : Value) : Prop :=
  ∀ path, toJson? value path = (wireValue value path).map Json.prune

/-- The plain documents of items are what remains of their wire forms. -/
theorem itemsToJson_eq {items : List Value} (each : ∀ item ∈ items, Prunes item) (position : Nat)
    (path : Path) :
    itemsToJson items position path = (wireItems items position path).map Json.pruneItems := by
  induction items generalizing position with
  | nil => rfl
  | cons item rest ih =>
    obtain ⟨here, others⟩ := List.forall_mem_cons.1 each
    simp only [itemsToJson, wireItems, here, ih others]
    cases wireValue item (path.push (.index position)) with
    | error error => rfl
    | ok document => cases wireItems rest (position + 1) path <;> rfl

/-- The plain documents of set elements are what remains of their wire forms. -/
theorem elementsToJson_eq {items : List Value} (each : ∀ item ∈ items, Prunes item) (path : Path) :
    elementsToJson items path = (wireElements items path).map Json.pruneItems := by
  induction items with
  | nil => rfl
  | cons item rest ih =>
    obtain ⟨here, others⟩ := List.forall_mem_cons.1 each
    simp only [elementsToJson, wireElements, here, ih others]
    cases wireValue item path with
    | error error => rfl
    | ok document => cases wireElements rest path <;> rfl

/-- The plain documents of entries are what remains of their wire forms, under the same names. -/
theorem entriesToJson_eq {entries : List (String × Value)}
    (each : ∀ entry ∈ entries, Prunes entry.2) (step : String → Step) (path : Path) :
    entriesToJson entries step path = (wireEntries entries step path).map Json.pruneMembers := by
  induction entries with
  | nil => rfl
  | cons entry rest ih =>
    obtain ⟨here, others⟩ := List.forall_mem_cons.1 each
    simp only [entriesToJson, wireEntries, here, ih others]
    cases wireValue entry.2 (path.push (step entry.1)) with
    | error error => rfl
    | ok document => cases wireEntries rest step path <;> rfl

/-- A sequence is absent just when nothing remains of its wire forms. -/
theorem keepArray_eq {items : List Value} {documents : List Json}
    (sent : List.Forall₂ Wires items documents) :
    keepArray items.length (Json.pruneItems documents) = Json.prune (.array documents) := by
  rw [sent.length_eq, keepArray_remaining, Json.prune]

/-- A mapping is absent just when nothing remains of its wire forms. -/
theorem keepObject_eq {entries : List (String × Value)} {members : List (String × Json)}
    (sent : Entries.Aligned Wires entries members) :
    keepObject entries.length (Json.pruneMembers members) = Json.prune (.object members) := by
  rw [sent.length_eq, keepObject_remaining, Json.prune]

/-- The plain document of a value is what remains of its wire form, at every path. -/
theorem toJson?_eq_prune (value : Value) : Prunes value := by
  induction value with
  | null | unknown | text | bool => exact fun _ => rfl
  | number known =>
    intro path
    simp only [toJson?, wireValue]
    cases known.toJson? <;> rfl
  | list element items ih | tuple items ih =>
    intro path
    simp only [toJson?, wireValue, itemsToJson_eq ih]
    cases sent : wireItems items 0 path with
    | error error => rfl
    | ok documents =>
      have wires := (wireItems_ok (fun item _ => wireValue_ok item) _ _ _).1 sent
      simp only [Except.map, keepArray_eq wires]
  | set element items ih =>
    intro path
    simp only [toJson?, wireValue, elementsToJson_eq ih]
    cases sent : wireElements items path with
    | error error => rfl
    | ok documents =>
      have wires := (wireElements_ok (fun item _ => wireValue_ok item) _ _).1 sent
      simp only [Except.map, keepArray_eq wires]
  | map element entries ih =>
    intro path
    simp only [toJson?, wireValue, entriesToJson_eq ih]
    cases sent : wireEntries entries .key path with
    | error error => rfl
    | ok members =>
      have wires := (wireEntries_ok (fun entry _ => wireValue_ok entry.2) _ _ _).1 sent
      simp only [Except.map, keepObject_eq wires]
  | object entries ih =>
    intro path
    simp only [toJson?, wireValue, entriesToJson_eq ih]
    cases sent : wireEntries entries .attr path with
    | error error => rfl
    | ok members =>
      have wires := (wireEntries_ok (fun entry _ => wireValue_ok entry.2) _ _ _).1 sent
      simp only [Except.map, keepObject_eq wires]

/-- A value cannot be encoded for the same reason, at the same place, as it has no document. -/
theorem encode_eq_error {value : Value} {error : ConvertError} :
    encode value = .error error ↔ toJson? value .root = .error error := by
  rw [toJson?_eq_prune value .root, encode]
  cases wireValue value .root <;> simp [Except.map]

/--
A value that can be encoded has a plain document, what remains of the value part of its encoding;
and a value that cannot be encoded has none, for the same reason at the same place.
-/
theorem toJson?_prunes_encode (value : Value) :
    (∀ sent, encode value = .ok sent →
      ∃ part, sent.member? "value" = some part ∧ toJson? value .root = .ok part.prune) ∧
    ∀ error, encode value = .error error ↔ toJson? value .root = .error error := by
  refine ⟨fun sent encoded => ?_, fun error => encode_eq_error⟩
  have prunes := toJson?_eq_prune value .root
  obtain ⟨part, wires, rfl⟩ := encode_ok.1 encoded
  rw [wires .root] at prunes
  exact ⟨part, by simp [Json.member?, Entries.get?], prunes⟩

/-- A set of a null, a list of a null and a number, and a set without elements. -/
def sparseState : Value :=
  object [("lost", set .bool [null .bool]),
    ("kept", list .number [null .number, number (.ofInt 7)]), ("empty", set .number [])]

/-- The wire form of the value part. -/
def sparseDocument : Json :=
  .object [("lost", .array [.null]), ("kept", .array [.null, .int 7]), ("empty", .array [])]

/-- A set of a set in which an element has no document. -/
def hiddenState : Value := set .dynamic [set .dynamic [text "a", unknown .bool]]

/--
The set of a null is absent, and so is the null of the list, but not the set without elements. The
unknown value is found by both conversions, and addressed through the elements around it.
-/
theorem sparseState_pruned :
    encode sparseState = .ok (.object [("type", sparseState.shape.toJson),
        ("value", sparseDocument)]) ∧
      toJson? sparseState .root = .ok sparseDocument.prune ∧
      sparseDocument.prune = some (.object [("kept", .array [.int 7]), ("empty", .array [])]) ∧
      toJson? hiddenState .root = .error ⟨⟨[.element (set .dynamic [text "a", unknown .bool]),
        .element (unknown .bool)]⟩, .unknownValue⟩ := by
  have sent : encode sparseState = .ok (.object [("type", sparseState.shape.toJson),
      ("value", sparseDocument)]) := by cbv
  obtain ⟨part, held, pruned⟩ := (toJson?_prunes_encode sparseState).1 _ sent
  obtain rfl : sparseDocument = part := Option.some.inj held
  exact ⟨sent, pruned, rfl, ((toJson?_prunes_encode hiddenState).2 _).1 rfl⟩

end TypedTree.Value
