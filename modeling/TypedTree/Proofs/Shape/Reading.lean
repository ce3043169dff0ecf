import TypedTree.Proofs.Shape.Writing

/-!
# Shapes read from their documents

A shape is read back from its document, attributes in their order, and from no other document. So
the document of a shape keeps all of it; and documents that are equal as JSON, whatever the order of
their members, are those of equal shapes.
-/

namespace TypedTree.Shape

/-- Equal shapes are written alike. -/
theorem toJson_same_of_beq {a b : Shape} (same : a == b) : Json.Same a.toJson b.toJson := by
  induction a generalizing b with
  | string | bool | number | dynamic =>
    cases equal_of_beq same
    exact .text _
  | list element ih =>
    obtain ⟨_, rfl, parts⟩ := (list_beq _ _).1 same
    exact .array (.cons (.text "list") (.cons (ih parts) .nil))
  | set element ih =>
    obtain ⟨_, rfl, parts⟩ := (set_beq _ _).1 same
    exact .array (.cons (.text "set") (.cons (ih parts) .nil))
  | map element ih =>
    obtain ⟨_, rfl, parts⟩ := (map_beq _ _).1 same
    exact .array (.cons (.text "map") (.cons (ih parts) .nil))
  | tuple slots ih =>
    obtain ⟨others, rfl, parts⟩ := (tuple_beq _ _).1 same
    have written : List.Forall₂ Json.Same (slotsToJson slots) (slotsToJson others) := by
      rw [slotsToJson_eq, slotsToJson_eq, List.forall₂_map_left_iff, List.forall₂_map_right_iff]
      exact Paired.imp parts fun slot held _ _ => ih slot held
    exact .array (.cons (.text "tuple") (.cons (.array written) .nil))
  | object attributes ih =>
    obtain ⟨others, rfl, parts⟩ := (object_beq _ _).1 same
    have written : Json.Same (.object (attributesToJson attributes))
        (.object (attributesToJson others)) := by
      rw [attributesToJson_eq, attributesToJson_eq, Json.object_same]
      exact ⟨_, rfl, parts.map toJson toJson fun entry held _ _ => ih entry held⟩
    exact .array (.cons (.text "object") (.cons written .nil))

/-- Behind every name but those of tuples and objects the reader looks for one shape. -/
theorem ofJson?_named {name : String} (slotless : name ≠ "tuple") (nameless : name ≠ "object")
    (part : Json) :
    ofJson? (.array [.text name, part]) = (ofJson? part).bind (collectionNamed? name) := by
  cases part <;> simp [ofJson?, slotless, nameless]

/-- Slots that are read back one by one are read back together. -/
theorem slotsOfJson?_slotsToJson {slots : List Shape}
    (each : ∀ slot ∈ slots, ofJson? slot.toJson = some slot) :
    slotsOfJson? (slotsToJson slots) = some slots := by
  induction slots with
  | nil => rfl
  | cons slot rest ih =>
    obtain ⟨first, others⟩ := List.forall_mem_cons.1 each
    simp only [slotsToJson, slotsOfJson?, first, ih others]

/-- Attributes that are read back one by one are read back together, in their order. -/
theorem attributesOfJson?_attributesToJson {attributes : List (String × Shape)}
    (each : ∀ entry ∈ attributes, ofJson? entry.2.toJson = some entry.2) :
    attributesOfJson? (attributesToJson attributes) = some attributes := by
  induction attributes with
  | nil => rfl
  | cons entry rest ih =>
    obtain ⟨first, others⟩ := List.forall_mem_cons.1 each
    simp only [attributesToJson, attributesOfJson?, first, ih others]

/-- A shape is read back from its document. -/
theorem ofJson?_toJson (shape : Shape) : ofJson? shape.toJson = some shape := by
  induction shape with
  | string | bool | number | dynamic => rfl
  | list element ih | set element ih | map element ih =>
    rw [toJson, ofJson?_named (by decide) (by decide), ih]
    rfl
  | tuple slots ih => simp [toJson, ofJson?, slotsOfJson?_slotsToJson ih]
  | object attributes ih => simp [toJson, ofJson?, attributesOfJson?_attributesToJson ih]

/-- A scalar shape is written as the name under which it is found. -/
theorem toJson_of_scalarNamed? {name : String} {shape : Shape}
    (found : scalarNamed? name = some shape) : shape.toJson = .text name := by
  unfold scalarNamed? at found
  split_ifs at found with string bool number dynamic
  all_goals
    obtain rfl := Option.some.inj found
    subst name
    rfl

/-- A collection is written as the name under which it is found and its element. -/
theorem toJson_of_collectionNamed? {name : String} {element shape : Shape}
    (found : collectionNamed? name element = some shape) :
    shape.toJson = .array [.text name, element.toJson] := by
  unfold collectionNamed? at found
  split_ifs at found with list set map
  all_goals
    obtain rfl := Option.some.inj found
    subst name
    rfl

/-- A shape is read from its own document only. -/
theorem toJson_of_ofJson? {document : Json} {shape : Shape}
    (read : ofJson? document = some shape) : shape.toJson = document := by
  -- the induction follows the reader, as this takes the items of the part of an array for slots
  induction document using ofJson?.induct
    (motive_2 := fun members => ∀ attributes, attributesOfJson? members = some attributes →
      attributesToJson attributes = members)
    (motive_3 := fun items => ∀ slots, slotsOfJson? items = some slots →
      slotsToJson slots = items)
    generalizing shape with
  | case1 name => exact toJson_of_scalarNamed? (by simpa [ofJson?] using read)
  | case2 items ih =>
    obtain ⟨slots, inner, rfl⟩ :
        ∃ slots, slotsOfJson? items = some slots ∧ tuple slots = shape := by
      simpa [ofJson?] using read
    rw [toJson, ih slots inner]
  | case3 name items other ih =>
    obtain ⟨element, inner, named⟩ : ∃ element, ofJson? (.array items) = some element ∧
        collectionNamed? name element = some shape := by
      simpa [ofJson?, other, Option.bind_eq_some_iff] using read
    rw [toJson_of_collectionNamed? named, ih inner]
  | case4 members ih =>
    obtain ⟨attributes, inner, rfl⟩ :
        ∃ attributes, attributesOfJson? members = some attributes ∧ object attributes = shape := by
      simpa [ofJson?] using read
    rw [toJson, ih attributes inner]
  | case5 name members other => simp [ofJson?, other] at read
  | case6 name part notArray notObject ih =>
    obtain ⟨element, inner, named⟩ : ∃ element, ofJson? part = some element ∧
        collectionNamed? name element = some shape := by
      simpa [ofJson?, Option.bind_eq_some_iff] using read
    rw [toJson_of_collectionNamed? named, ih inner]
  | case7 document notText notNamed => simp [ofJson?] at read
  | case8 slots read =>
    obtain rfl := Option.some.inj read
    rfl
  | case9 item rest slot slots later first ihFirst ihRest all read =>
    obtain rfl : slot :: slots = all := by simpa [slotsOfJson?, first, later] using read
    rw [slotsToJson, ihFirst first, ihRest slots later]
  | case10 item rest unread _ _ all read => simp [slotsOfJson?] at read
  | case11 attributes read =>
    obtain rfl := Option.some.inj read
    rfl
  | case12 name member rest shape attributes later first ihFirst ihRest all read =>
    obtain rfl : (name, shape) :: attributes = all := by
      simpa [attributesOfJson?, first, later] using read
    rw [attributesToJson, ihFirst first, ihRest attributes later]
  | case13 name member rest unread _ _ all read => simp [attributesOfJson?] at read

/--
The document of a shape loses nothing. Two shapes have equal documents, the members of objects in
any order, just when they are equal; and the reader gives every shape back from its document, with
its attributes in their order, and reads no other document.
-/
theorem toJson_loses_nothing :
    (∀ a b : Shape, Json.Same a.toJson b.toJson ↔ a == b) ∧
      (∀ shape : Shape, ofJson? shape.toJson = some shape) ∧
      ∀ (document : Json) (shape : Shape),
        ofJson? document = some shape → document = shape.toJson :=
  ⟨fun _ _ => ⟨beq_of_toJson_same, toJson_same_of_beq⟩, ofJson?_toJson,
    fun _ _ read => (toJson_of_ofJson? read).symm⟩

/-- A record with attributes that are named like shapes. -/
def namesakes : Shape := .object [("list", .tuple [.list .dynamic]), ("object", .string)]

/-- The same record with its attributes in the other order. -/
def namesakesTurned : Shape := .object [("object", .string), ("list", .tuple [.list .dynamic])]

/-- The document of the record. -/
def namesakesDocument : Json :=
  .array [.text "object", .object
    [("list", .array [.text "tuple", .array [.array [.text "list", .text "dynamic"]]]),
      ("object", .text "string")]]

/-- The names of the attributes do not confuse the reader, and their order tells nothing apart. -/
theorem namesakes_read_back :
    namesakesDocument = namesakes.toJson ∧ ofJson? namesakesDocument = some namesakes ∧
      Json.Same namesakes.toJson namesakesTurned.toJson := by
  have read : ofJson? namesakesDocument = some namesakes := rfl
  have same : namesakes == namesakesTurned := by decide
  exact ⟨toJson_loses_nothing.2.2 _ _ read, read, (toJson_loses_nothing.1 _ _).2 same⟩

end TypedTree.Shape
