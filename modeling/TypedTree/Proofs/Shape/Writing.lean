import TypedTree.Proofs.Json.Equality
import TypedTree.Proofs.Shape.Equality
import TypedTree.Shape.Json

/-!
# Shapes that are written alike

A shape is told from every other one by its document: by the name at its front, and by the parts
behind it, attributes in any order.
-/

namespace TypedTree.Shape

/-- The documents of slots are written one by one. -/
theorem slotsToJson_eq (slots : List Shape) : slotsToJson slots = slots.map toJson := by
  induction slots with
  | nil => rfl
  | cons slot rest ih => rw [slotsToJson, ih, List.map_cons]

/-- The documents of attributes stand under the names of the attributes. -/
theorem attributesToJson_eq (attributes : List (String × Shape)) :
    attributesToJson attributes = attributes.map fun entry => (entry.1, entry.2.toJson) := by
  induction attributes with
  | nil => rfl
  | cons entry rest ih => rw [attributesToJson, ih, List.map_cons]

/-- The name of a shape and the document of its parts, where it has any. -/
def parts? : Shape → Option Json
  | list element | set element | map element => some element.toJson
  | tuple slots => some (.array (slots.map toJson))
  | object attributes => some (.object (attributes.map fun entry => (entry.1, entry.2.toJson)))
  | string | bool | number | dynamic => none

/-- A shape is written as its name, or as its name and its parts. -/
theorem toJson_eq (shape : Shape) :
    shape.toJson =
      match shape.parts? with
      | none => .text shape.kindName
      | some parts => .array [.text shape.kindName, parts] := by
  cases shape <;> simp [toJson, parts?, kindName, slotsToJson_eq, attributesToJson_eq]

/-- Shapes that are written alike have one name and parts that are written alike. -/
theorem kindName_of_toJson_same {a b : Shape} (same : Json.Same a.toJson b.toJson) :
    a.kindName = b.kindName ∧ Option.Rel Json.Same a.parts? b.parts? := by
  rw [toJson_eq a, toJson_eq b] at same
  cases left : a.parts? with
  | none =>
    cases right : b.parts? with
    | none =>
      rw [left, right, Json.text_same, Json.text.injEq] at same
      exact ⟨same.symm, .none⟩
    | some parts =>
      rw [left, right, Json.text_same] at same
      cases same
  | some parts =>
    cases right : b.parts? with
    | none =>
      rw [left, right] at same
      cases same
    | some others =>
      rw [left, right] at same
      cases same with
      | array pairs =>
        have name := (List.forall₂_cons.1 pairs).1
        have rest := (List.forall₂_cons.1 (List.forall₂_cons.1 pairs).2).1
        rw [Json.text_same, Json.text.injEq] at name
        exact ⟨name.symm, .some rest⟩

/-- Shapes whose documents are equal are equal. -/
theorem beq_of_toJson_same {a b : Shape} (same : Json.Same a.toJson b.toJson) : a == b := by
  induction a generalizing b with
  | string | bool | number | dynamic =>
    have name := (kindName_of_toJson_same same).1
    cases b <;> first | rfl | simp [kindName] at name
  | list element ih =>
    obtain ⟨name, parts⟩ := kindName_of_toJson_same same
    cases b with
    | list other =>
      cases parts with
      | some inner => exact (list_beq _ _).2 ⟨other, rfl, ih inner⟩
    | _ => simp [kindName] at name
  | set element ih =>
    obtain ⟨name, parts⟩ := kindName_of_toJson_same same
    cases b with
    | set other =>
      cases parts with
      | some inner => exact (set_beq _ _).2 ⟨other, rfl, ih inner⟩
    | _ => simp [kindName] at name
  | map element ih =>
    obtain ⟨name, parts⟩ := kindName_of_toJson_same same
    cases b with
    | map other =>
      cases parts with
      | some inner => exact (map_beq _ _).2 ⟨other, rfl, ih inner⟩
    | _ => simp [kindName] at name
  | tuple slots ih =>
    obtain ⟨name, parts⟩ := kindName_of_toJson_same same
    cases b with
    | tuple others =>
      cases parts with
      | some inner =>
        cases inner with
        | array inner =>
          rw [List.forall₂_map_left_iff, List.forall₂_map_right_iff] at inner
          exact (tuple_beq _ _).2 ⟨others, rfl, Paired.imp inner fun a held _ _ => ih a held⟩
    | _ => simp [kindName] at name
  | object attributes ih =>
    obtain ⟨name, parts⟩ := kindName_of_toJson_same same
    cases b with
    | object others =>
      cases parts with
      | some inner =>
        obtain ⟨members, written, inner⟩ := (Json.object_same _ _).1 inner
        obtain rfl := Json.object.inj written
        refine (object_beq _ _).2 ⟨others, rfl, by simpa using inner.1, fun entry held => ?_⟩
        obtain ⟨document, found, same⟩ := inner.2 _ (List.mem_map_of_mem held)
        rw [Entries.get?_map] at found
        obtain ⟨shape, there, rfl⟩ := Option.map_eq_some_iff.1 found
        exact ⟨shape, there, ih entry held same⟩
    | _ => simp [kindName] at name

end TypedTree.Shape
