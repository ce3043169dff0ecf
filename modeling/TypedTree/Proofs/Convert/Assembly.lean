import TypedTree.Proofs.Convert.Attributes

/-!
# Values assembled from their parts

An array is read item by item, each in its slot, and an object member by member. What the whole
becomes is then a matter of its shape and of what was read of its parts, and no longer of the
document: a collection unifies them, a tuple takes them as they are, an object adds the attributes
that it lacks, and where nothing is declared the tightest shape is inferred.
-/

namespace TypedTree

namespace Shape

/-- The shape under which an array of a size has the item at a position read. -/
def itemSlot (shape : Shape) (count position : Nat) : Shape :=
  match shape with
  | list element | set element => element
  | tuple slots => Value.slotAt slots count position
  | _ => dynamic

/-- The shape that a member of a name has in its place; an object declares it or does not. -/
def memberSlot? : Shape → String → Option Shape
  | object attributes, name => Entries.get? attributes name
  | map element, _ => some element
  | _, _ => some dynamic

end Shape

namespace Value

/-- What an array becomes under a shape when its items were read as some values. -/
inductive FromItems : Shape → List Value → Value → Prop
  | list {declared element : Shape} {values : List Value} :
      unify declared (indexed values) = .ok element →
      FromItems (.list declared) values (list element (values.map (retypeNull element)))
  | set {declared element : Shape} {values : List Value} :
      unify declared (indexed values) = .ok element →
      FromItems (.set declared) values (set element (values.map (retypeNull element)))
  | tuple {slots : List Shape} {values : List Value} :
      broadcasts slots values.length = true ∨ slots.length = values.length →
      FromItems (.tuple slots) values (tuple values)
  | sequence (values : List Value) : FromItems .dynamic values (inferSequence values)

/-- What an object becomes under a shape when its members were read as some entries. -/
inductive FromEntries : Shape → List (String × Value) → Value → Prop
  | object (attributes : List (String × Shape)) (entries : List (String × Value)) :
      FromEntries (.object attributes) entries
        (object (entries ++ missingAttributes attributes entries))
  | map {declared element : Shape} {entries : List (String × Value)} :
      unify declared (keyed entries) = .ok element →
      FromEntries (.map declared) entries
        (map element (entries.map fun entry => (entry.1, entry.2.retypeNull element)))
  | record (entries : List (String × Value)) : FromEntries .dynamic entries (object entries)

/--
Items are read under a tuple shape in the slots of their positions, where the tuple has as many
slots or a single one that is spread over the items.
-/
theorem reads_tuple_slots {items : List Json} {slots : List Shape} {value : Value} :
    Reads (.array items) (.tuple slots) value ↔
      (broadcasts slots items.length = true ∨ slots.length = items.length) ∧
        ∃ values, value = .tuple values ∧
          List.Forall₂ (fun item value => Reads item.1 (slotAt slots items.length item.2) value)
            items.zipIdx values := by
  simp only [← itemsOfJson_reads items _ 0 .root]
  rw [← ofJson_ok _ _ .root, ofJson]
  by_cases fits : broadcasts slots items.length = true ∨ slots.length = items.length
  · have taken : (!broadcasts slots items.length && slots.length != items.length) = false := by
      rcases fits with fits | fits <;> simp [fits]
    rw [taken]
    simp only [fits, true_and, Bool.false_eq_true, ↓reduceIte]
    cases itemsOfJson items (slotAt slots items.length) 0 .root <;> simp [eq_comm]
  · have refused : (!broadcasts slots items.length && slots.length != items.length) = true := by
      simpa [not_or] using fits
    simp [refused, fits]

/-- An array is read when its items are, each in its slot, and they make up a value. -/
theorem reads_array {items : List Json} {shape : Shape} {value : Value} :
    Reads (.array items) shape value ↔
      ∃ values,
        List.Forall₂ (fun item value => Reads item.1 (shape.itemSlot items.length item.2) value)
          items.zipIdx values ∧ FromItems shape values value := by
  constructor
  · intro read
    rcases read.array_shape with ⟨declared, rfl⟩ | ⟨declared, rfl⟩ | ⟨slots, rfl⟩ | rfl
    · obtain ⟨values, element, parts, unified, rfl⟩ := (reads_list _ _ _).1 read
      exact ⟨values, (forall₂_zipIdx (Reads · declared ·) _ _ _).2 parts, .list unified⟩
    · obtain ⟨values, element, parts, unified, rfl⟩ := (reads_set _ _ _).1 read
      exact ⟨values, (forall₂_zipIdx (Reads · declared ·) _ _ _).2 parts, .set unified⟩
    · obtain ⟨fits, values, rfl, parts⟩ := reads_tuple_slots.1 read
      have size : items.length = values.length := by
        rw [← parts.length_eq, List.length_zipIdx]
      exact ⟨values, parts, .tuple (size ▸ fits)⟩
    · obtain ⟨values, parts, rfl⟩ := (reads_sequence _ _).1 read
      exact ⟨values, (forall₂_zipIdx (Reads · .dynamic ·) _ _ _).2 parts, .sequence values⟩
  · rintro ⟨values, parts, made⟩
    cases made with
    | @list declared element _ unified =>
      have each := (forall₂_zipIdx (Reads · declared ·) _ _ _).1 parts
      exact (reads_list _ _ _).2 ⟨values, element, each, unified, rfl⟩
    | @set declared element _ unified =>
      have each := (forall₂_zipIdx (Reads · declared ·) _ _ _).1 parts
      exact (reads_set _ _ _).2 ⟨values, element, each, unified, rfl⟩
    | tuple fits =>
      have size : items.length = values.length := by
        rw [← parts.length_eq, List.length_zipIdx]
      exact reads_tuple_slots.2 ⟨size ▸ fits, values, rfl, parts⟩
    | sequence =>
      have each := (forall₂_zipIdx (Reads · .dynamic ·) _ _ _).1 parts
      exact (reads_sequence _ _).2 ⟨values, each, rfl⟩

/-- An object is read when its members are, each in its slot, and they make up a value. -/
theorem reads_members {members : List (String × Json)} {shape : Shape} {value : Value} :
    Reads (.object members) shape value ↔
      ∃ entries, List.Forall₂ (ReadsMember shape.memberSlot?) members entries ∧
        FromEntries shape entries value := by
  constructor
  · intro read
    rcases read.object_shape with ⟨attributes, rfl⟩ | ⟨declared, rfl⟩ | rfl
    · obtain ⟨entries, parts, rfl⟩ := (reads_object _ _ _).1 read
      exact ⟨entries, parts, .object attributes entries⟩
    · obtain ⟨entries, element, parts, unified, rfl⟩ := (reads_map _ _ _).1 read
      exact ⟨entries, parts, .map unified⟩
    · obtain ⟨entries, parts, rfl⟩ := (reads_record _ _).1 read
      exact ⟨entries, parts, .record entries⟩
  · rintro ⟨entries, parts, made⟩
    cases made with
    | object attributes => exact (reads_object _ _ _).2 ⟨entries, parts, rfl⟩
    | @map _ element _ unified => exact (reads_map _ _ _).2 ⟨entries, element, parts, unified, rfl⟩
    | record => exact (reads_record _ _).2 ⟨entries, parts, rfl⟩

end Value
end TypedTree
