import TypedTree.Proofs.Shape.Equality

/-!
# Acceptance and equality

A shape accepts every shape that it equals. Without `dynamic` in it, it accepts no others.
-/

namespace TypedTree.Shape

section Admission

attribute [local simp] accepts acceptsSlots acceptsAttributes

/-- Slots admit each other when their members do, one by one. -/
theorem acceptsSlots_iff (as bs : List Shape) :
    acceptsSlots as bs = true ↔ List.Forall₂ (fun a b => a.accepts b = true) as bs := by
  induction as generalizing bs with
  | nil => cases bs <;> simp
  | cons a as ih => cases bs <;> simp [ih]

/-- The admission of attributes looks every declared one up by name. -/
theorem acceptsAttributes_iff (as bs : List (String × Shape)) :
    acceptsAttributes as bs = true ↔
      ∀ entry ∈ as, ∃ shape, Entries.get? bs entry.1 = some shape ∧
        entry.2.accepts shape = true := by
  induction as with
  | nil => simp
  | cons entry rest ih =>
    cases found : Entries.get? bs entry.1 <;> simp [ih, found]

@[simp]
theorem dynamic_accepts (shape : Shape) : dynamic.accepts shape = true := by
  cases shape <;> rfl

@[simp]
theorem string_accepts (shape : Shape) : string.accepts shape = true ↔ shape = string := by
  cases shape <;> simp

@[simp]
theorem bool_accepts (shape : Shape) : bool.accepts shape = true ↔ shape = bool := by
  cases shape <;> simp

@[simp]
theorem number_accepts (shape : Shape) : number.accepts shape = true ↔ shape = number := by
  cases shape <;> simp

@[simp]
theorem list_accepts (element shape : Shape) :
    (list element).accepts shape = true ↔
      ∃ other, shape = list other ∧ element.accepts other = true := by
  cases shape <;> simp

@[simp]
theorem set_accepts (element shape : Shape) :
    (set element).accepts shape = true ↔
      ∃ other, shape = set other ∧ element.accepts other = true := by
  cases shape <;> simp

@[simp]
theorem map_accepts (element shape : Shape) :
    (map element).accepts shape = true ↔
      ∃ other, shape = map other ∧ element.accepts other = true := by
  cases shape <;> simp

@[simp]
theorem tuple_accepts (slots : List Shape) (shape : Shape) :
    (tuple slots).accepts shape = true ↔
      ∃ others, shape = tuple others ∧
        List.Forall₂ (fun a b => a.accepts b = true) slots others := by
  cases shape <;> simp [acceptsSlots_iff]

@[simp]
theorem object_accepts (attributes : List (String × Shape)) (shape : Shape) :
    (object attributes).accepts shape = true ↔
      ∃ others, shape = object others ∧
        Entries.Corresponds (fun a b => a.accepts b = true) attributes others := by
  cases shape <;> simp [acceptsAttributes_iff, Entries.Corresponds]

end Admission

/-- A shape accepts the shapes that it equals. -/
theorem accepts_of_beq {a b : Shape} (same : a == b) : a.accepts b = true := by
  induction a generalizing b with
  | list element ih =>
    obtain ⟨_, rfl, parts⟩ := (list_beq _ _).1 same
    exact (list_accepts _ _).2 ⟨_, rfl, ih parts⟩
  | set element ih =>
    obtain ⟨_, rfl, parts⟩ := (set_beq _ _).1 same
    exact (set_accepts _ _).2 ⟨_, rfl, ih parts⟩
  | map element ih =>
    obtain ⟨_, rfl, parts⟩ := (map_beq _ _).1 same
    exact (map_accepts _ _).2 ⟨_, rfl, ih parts⟩
  | tuple slots ih =>
    obtain ⟨_, rfl, parts⟩ := (tuple_beq _ _).1 same
    exact (tuple_accepts _ _).2 ⟨_, rfl, Paired.imp parts fun a ha _ _ => ih a ha⟩
  | object attributes ih =>
    obtain ⟨_, rfl, parts⟩ := (object_beq _ _).1 same
    exact (object_accepts _ _).2 ⟨_, rfl, parts.imp fun a ha _ _ => ih a ha⟩
  | _ => simp_all

/-- A shape of distinct names accepts itself. -/
theorem accepts_self {shape : Shape} (formed : shape.WellFormed) : shape.accepts shape = true :=
  accepts_of_beq (beq_refl formed)

/-- No slot has `dynamic` in it. -/
theorem anyDynamic_eq_false (slots : List Shape) :
    anyDynamic slots = false ↔ ∀ slot ∈ slots, slot.hasDynamic = false := by
  induction slots with
  | nil => simp [anyDynamic]
  | cons slot rest ih => simp [anyDynamic, ih]

/-- No attribute has `dynamic` in it. -/
theorem anyAttributeDynamic_eq_false (attributes : List (String × Shape)) :
    anyAttributeDynamic attributes = false ↔
      ∀ entry ∈ attributes, entry.2.hasDynamic = false := by
  induction attributes with
  | nil => simp [anyAttributeDynamic]
  | cons entry rest ih => simp [anyAttributeDynamic, ih]

@[simp]
theorem hasDynamic_tuple (slots : List Shape) :
    (tuple slots).hasDynamic = false ↔ ∀ slot ∈ slots, slot.hasDynamic = false :=
  anyDynamic_eq_false slots

@[simp]
theorem hasDynamic_object (attributes : List (String × Shape)) :
    (object attributes).hasDynamic = false ↔
      ∀ entry ∈ attributes, entry.2.hasDynamic = false :=
  anyAttributeDynamic_eq_false attributes

@[simp]
theorem hasDynamic_list (element : Shape) : (list element).hasDynamic = element.hasDynamic := rfl

@[simp]
theorem hasDynamic_set (element : Shape) : (set element).hasDynamic = element.hasDynamic := rfl

@[simp]
theorem hasDynamic_map (element : Shape) : (map element).hasDynamic = element.hasDynamic := rfl

/-- Without `dynamic` a shape accepts only the shapes that it equals. -/
theorem beq_of_accepts {a b : Shape} (static : a.hasDynamic = false)
    (admits : a.accepts b = true) : a == b := by
  induction a generalizing b with
  | dynamic => simp [hasDynamic] at static
  | list element ih =>
    obtain ⟨_, rfl, parts⟩ := (list_accepts _ _).1 admits
    exact (list_beq _ _).2 ⟨_, rfl, ih (by simpa using static) parts⟩
  | set element ih =>
    obtain ⟨_, rfl, parts⟩ := (set_accepts _ _).1 admits
    exact (set_beq _ _).2 ⟨_, rfl, ih (by simpa using static) parts⟩
  | map element ih =>
    obtain ⟨_, rfl, parts⟩ := (map_accepts _ _).1 admits
    exact (map_beq _ _).2 ⟨_, rfl, ih (by simpa using static) parts⟩
  | tuple slots ih =>
    obtain ⟨_, rfl, parts⟩ := (tuple_accepts _ _).1 admits
    simp only [hasDynamic_tuple] at static
    exact (tuple_beq _ _).2 ⟨_, rfl, Paired.imp parts fun a ha _ _ => ih a ha (static a ha)⟩
  | object attributes ih =>
    obtain ⟨_, rfl, parts⟩ := (object_accepts _ _).1 admits
    simp only [hasDynamic_object] at static
    exact (object_beq _ _).2 ⟨_, rfl, parts.imp fun a ha _ _ => ih a ha (static a ha)⟩
  | _ => simp_all

/-- A shape of distinct names that equals one without `dynamic` has none either. -/
theorem hasDynamic_of_beq {a b : Shape} (formed : a.WellFormed) (same : a == b)
    (static : a.hasDynamic = false) : b.hasDynamic = false := by
  induction a generalizing b with
  | dynamic => simp [hasDynamic] at static
  | list element ih =>
    obtain ⟨_, rfl, parts⟩ := (list_beq _ _).1 same
    simp_all
  | set element ih =>
    obtain ⟨_, rfl, parts⟩ := (set_beq _ _).1 same
    simp_all
  | map element ih =>
    obtain ⟨_, rfl, parts⟩ := (map_beq _ _).1 same
    simp_all
  | tuple slots ih =>
    obtain ⟨_, rfl, parts⟩ := (tuple_beq _ _).1 same
    simp only [hasDynamic_tuple, wellFormed_tuple] at static formed ⊢
    intro b hb
    obtain ⟨a, ha, step⟩ := Paired.exists_left parts hb
    exact ih a ha (formed a ha) step (static a ha)
  | object attributes ih =>
    obtain ⟨_, rfl, parts⟩ := (object_beq _ _).1 same
    simp only [hasDynamic_object, wellFormed_object] at static formed ⊢
    intro b hb
    -- the comparison runs from the left, so the attribute is found by turning it round
    have distinct := (parts.keys_perm formed.1).nodup_iff.1 formed.1
    have turned : Entries.Corresponds (fun b a => a == b) _ attributes :=
      parts.symm formed.1 distinct fun _ _ _ _ step => step
    obtain ⟨_, found, step⟩ := turned.2 b hb
    exact ih _ (Entries.mem_of_get? found) (formed.2 _ (Entries.mem_of_get? found)) step
      (static _ (Entries.mem_of_get? found))
  | _ => simp_all [hasDynamic]

end TypedTree.Shape
