import TypedTree.Proofs.Entries
import TypedTree.Proofs.Paired
import TypedTree.Shape.Basic

/-!
# Equality of shapes

Equality compares the attributes of objects by name and from one side. On shapes whose attribute
names are distinct at every depth it is reflexive, symmetric and transitive.
-/

namespace TypedTree.Shape

/-- To show a property of all shapes, show it of a shape from the shapes that are its parts. -/
@[elab_as_elim, induction_eliminator]
theorem induction {motive : Shape → Prop} (string : motive string) (bool : motive bool)
    (number : motive number) (dynamic : motive dynamic)
    (list : ∀ element, motive element → motive (list element))
    (tuple : ∀ slots, (∀ slot ∈ slots, motive slot) → motive (tuple slots))
    (set : ∀ element, motive element → motive (set element))
    (map : ∀ element, motive element → motive (map element))
    (object : ∀ attributes, (∀ entry ∈ attributes, motive entry.2) → motive (object attributes))
    (shape : Shape) : motive shape :=
  Shape.rec (motive_1 := motive) (motive_2 := fun slots => ∀ slot ∈ slots, motive slot)
    (motive_3 := fun attributes => ∀ entry ∈ attributes, motive entry.2)
    (motive_4 := fun entry => motive entry.2)
    string bool number dynamic list tuple set map object
    (by simp) (fun _ _ first others => List.forall_mem_cons.2 ⟨first, others⟩)
    (by simp) (fun _ _ first others => List.forall_mem_cons.2 ⟨first, others⟩)
    (fun _ _ value => value) shape

/-- Attribute names are distinct, at every depth. -/
inductive WellFormed : Shape → Prop
  | string : WellFormed string
  | bool : WellFormed bool
  | number : WellFormed number
  | dynamic : WellFormed dynamic
  | list {element : Shape} : WellFormed element → WellFormed (list element)
  | tuple {slots : List Shape} : (∀ slot ∈ slots, WellFormed slot) → WellFormed (tuple slots)
  | set {element : Shape} : WellFormed element → WellFormed (set element)
  | map {element : Shape} : WellFormed element → WellFormed (map element)
  | object {attributes : List (String × Shape)} : Entries.Distinct attributes →
      (∀ entry ∈ attributes, WellFormed entry.2) → WellFormed (object attributes)

attribute [simp] WellFormed.string WellFormed.bool WellFormed.number WellFormed.dynamic

@[simp]
theorem wellFormed_list (element : Shape) : (list element).WellFormed ↔ element.WellFormed :=
  ⟨fun formed => by cases formed; assumption, .list⟩

@[simp]
theorem wellFormed_set (element : Shape) : (set element).WellFormed ↔ element.WellFormed :=
  ⟨fun formed => by cases formed; assumption, .set⟩

@[simp]
theorem wellFormed_map (element : Shape) : (map element).WellFormed ↔ element.WellFormed :=
  ⟨fun formed => by cases formed; assumption, .map⟩

@[simp]
theorem wellFormed_tuple (slots : List Shape) :
    (tuple slots).WellFormed ↔ ∀ slot ∈ slots, slot.WellFormed :=
  ⟨fun formed => by cases formed; assumption, .tuple⟩

@[simp]
theorem wellFormed_object (attributes : List (String × Shape)) :
    (object attributes).WellFormed ↔
      Entries.Distinct attributes ∧ ∀ entry ∈ attributes, entry.2.WellFormed :=
  ⟨fun formed => by cases formed; exact ⟨‹_›, ‹_›⟩, fun formed => .object formed.1 formed.2⟩

section Comparison

attribute [local simp] beq beqSlots beqAttributes

/-- Lists of slots are equal when their members are, one by one. -/
theorem beqSlots_iff (as bs : List Shape) :
    beqSlots as bs = true ↔ List.Forall₂ (fun a b => a == b) as bs := by
  induction as generalizing bs with
  | nil => cases bs <;> simp
  | cons a as ih => cases bs <;> simp [ih, BEq.beq]

/-- The comparison of attributes looks every one of them up by name. -/
theorem beqAttributes_iff (as bs : List (String × Shape)) :
    beqAttributes as bs = true ↔
      ∀ entry ∈ as, ∃ shape, Entries.get? bs entry.1 = some shape ∧ entry.2 == shape := by
  induction as with
  | nil => simp
  | cons entry rest ih =>
    cases found : Entries.get? bs entry.1 <;> simp [ih, found, BEq.beq]

@[simp]
theorem string_beq (shape : Shape) : (string == shape) = true ↔ shape = string := by
  cases shape <;> simp [BEq.beq]

@[simp]
theorem bool_beq (shape : Shape) : (bool == shape) = true ↔ shape = bool := by
  cases shape <;> simp [BEq.beq]

@[simp]
theorem number_beq (shape : Shape) : (number == shape) = true ↔ shape = number := by
  cases shape <;> simp [BEq.beq]

@[simp]
theorem dynamic_beq (shape : Shape) : (dynamic == shape) = true ↔ shape = dynamic := by
  cases shape <;> simp [BEq.beq]

@[simp]
theorem beq_dynamic (shape : Shape) : (shape == dynamic) = true ↔ shape = dynamic := by
  cases shape <;> simp [BEq.beq]

@[simp]
theorem list_beq (element shape : Shape) :
    (list element == shape) = true ↔ ∃ other, shape = list other ∧ element == other := by
  cases shape <;> simp [BEq.beq]

@[simp]
theorem set_beq (element shape : Shape) :
    (set element == shape) = true ↔ ∃ other, shape = set other ∧ element == other := by
  cases shape <;> simp [BEq.beq]

@[simp]
theorem map_beq (element shape : Shape) :
    (map element == shape) = true ↔ ∃ other, shape = map other ∧ element == other := by
  cases shape <;> simp [BEq.beq]

@[simp]
theorem tuple_beq (slots : List Shape) (shape : Shape) :
    (tuple slots == shape) = true ↔
      ∃ others, shape = tuple others ∧ List.Forall₂ (fun a b => a == b) slots others := by
  cases shape with
  | tuple others =>
    simp only [tuple.injEq, exists_eq_left', ← beqSlots_iff]
    rfl
  | _ => simp [BEq.beq]

@[simp]
theorem object_beq (attributes : List (String × Shape)) (shape : Shape) :
    (object attributes == shape) = true ↔
      ∃ others, shape = object others ∧
        Entries.Corresponds (fun a b => a == b) attributes others := by
  cases shape with
  | object others =>
    simp only [object.injEq, exists_eq_left', Entries.Corresponds, ← beqAttributes_iff]
    simp [BEq.beq]
  | _ => simp [BEq.beq]

end Comparison

/-- Equality of shapes by their forms. -/
inductive Equal : Shape → Shape → Prop
  | string : Equal string string
  | bool : Equal bool bool
  | number : Equal number number
  | dynamic : Equal dynamic dynamic
  | list {element other : Shape} : element == other → Equal (list element) (list other)
  | tuple {slots others : List Shape} : List.Forall₂ (fun a b => a == b) slots others →
      Equal (tuple slots) (tuple others)
  | set {element other : Shape} : element == other → Equal (set element) (set other)
  | map {element other : Shape} : element == other → Equal (map element) (map other)
  | object {attributes others : List (String × Shape)} :
      Entries.Corresponds (fun a b => a == b) attributes others →
      Equal (object attributes) (object others)

/-- Shapes that compare as equal have the same form with equal parts. -/
theorem equal_of_beq {shape other : Shape} (same : shape == other) : Equal shape other := by
  cases shape with
  | string => exact (string_beq _).1 same ▸ .string
  | bool => exact (bool_beq _).1 same ▸ .bool
  | number => exact (number_beq _).1 same ▸ .number
  | dynamic => exact (dynamic_beq _).1 same ▸ .dynamic
  | list element =>
    obtain ⟨_, rfl, parts⟩ := (list_beq _ _).1 same
    exact .list parts
  | tuple slots =>
    obtain ⟨_, rfl, parts⟩ := (tuple_beq _ _).1 same
    exact .tuple parts
  | set element =>
    obtain ⟨_, rfl, parts⟩ := (set_beq _ _).1 same
    exact .set parts
  | map element =>
    obtain ⟨_, rfl, parts⟩ := (map_beq _ _).1 same
    exact .map parts
  | object attributes =>
    obtain ⟨_, rfl, parts⟩ := (object_beq _ _).1 same
    exact .object parts

/-- A shape of distinct names equals itself. -/
theorem beq_refl {shape : Shape} (formed : shape.WellFormed) : shape == shape := by
  induction shape with
  | list element ih | set element ih | map element ih => simpa using ih (by simpa using formed)
  | tuple slots ih =>
    simp only [wellFormed_tuple] at formed
    refine (tuple_beq _ _).2 ⟨slots, rfl, List.forall₂_same.2 fun slot held => ?_⟩
    exact ih slot held (formed slot held)
  | object attributes ih =>
    simp only [wellFormed_object] at formed
    refine (object_beq _ _).2 ⟨attributes, rfl, Entries.Corresponds.refl formed.1 ?_⟩
    exact fun entry held => ih entry held (formed.2 entry held)
  | _ => rfl

/-- What equals a shape of distinct names has distinct names. -/
theorem WellFormed.of_beq {a b : Shape} (formed : a.WellFormed) (same : a == b) :
    b.WellFormed := by
  induction a generalizing b with
  | list element ih =>
    obtain ⟨other, rfl, parts⟩ := (list_beq _ _).1 same
    exact .list (ih (by simpa using formed) parts)
  | set element ih =>
    obtain ⟨other, rfl, parts⟩ := (set_beq _ _).1 same
    exact .set (ih (by simpa using formed) parts)
  | map element ih =>
    obtain ⟨other, rfl, parts⟩ := (map_beq _ _).1 same
    exact .map (ih (by simpa using formed) parts)
  | tuple slots ih =>
    obtain ⟨others, rfl, parts⟩ := (tuple_beq _ _).1 same
    rw [wellFormed_tuple] at formed
    refine .tuple fun other held => ?_
    obtain ⟨slot, there, step⟩ := Paired.exists_left parts held
    exact ih slot there (formed slot there) step
  | object attributes ih =>
    obtain ⟨others, rfl, parts⟩ := (object_beq _ _).1 same
    rw [wellFormed_object] at formed
    have distinct := (parts.keys_perm formed.1).nodup_iff.1 formed.1
    refine .object distinct fun other held => ?_
    obtain ⟨own, found⟩ := Entries.exists_get?_of_perm (parts.keys_perm formed.1).symm held
    obtain ⟨value, there, step⟩ := parts.get? found
    obtain rfl : value = other.2 := Entries.eq_of_get? distinct held there
    exact ih _ (Entries.mem_of_get? found) (formed.2 _ (Entries.mem_of_get? found)) step
  | _ => simp_all

/-- Equality with a shape of distinct names can be turned round. -/
theorem beq_symm {a b : Shape} (formed : a.WellFormed) (same : a == b) : b == a := by
  induction a generalizing b with
  | list element ih =>
    obtain ⟨other, rfl, parts⟩ := (list_beq _ _).1 same
    exact (list_beq _ _).2 ⟨element, rfl, ih (by simpa using formed) parts⟩
  | set element ih =>
    obtain ⟨other, rfl, parts⟩ := (set_beq _ _).1 same
    exact (set_beq _ _).2 ⟨element, rfl, ih (by simpa using formed) parts⟩
  | map element ih =>
    obtain ⟨other, rfl, parts⟩ := (map_beq _ _).1 same
    exact (map_beq _ _).2 ⟨element, rfl, ih (by simpa using formed) parts⟩
  | tuple slots ih =>
    obtain ⟨others, rfl, parts⟩ := (tuple_beq _ _).1 same
    rw [wellFormed_tuple] at formed
    exact (tuple_beq _ _).2 ⟨slots, rfl, Paired.symm parts fun a ha _ _ => ih a ha (formed a ha)⟩
  | object attributes ih =>
    obtain ⟨others, rfl, parts⟩ := (object_beq _ _).1 same
    rw [wellFormed_object] at formed
    have distinct := (parts.keys_perm formed.1).nodup_iff.1 formed.1
    exact (object_beq _ _).2 ⟨attributes, rfl, parts.symm formed.1 distinct fun a ha _ _ =>
      ih a ha (formed.2 a ha)⟩
  | _ => simp_all

/-- Shapes that equal the same shape in turn are equal. -/
theorem beq_trans {a b c : Shape} (first : a == b) (second : b == c) : a == c := by
  induction a generalizing b c with
  | list element ih =>
    obtain ⟨_, rfl, left⟩ := (list_beq _ _).1 first
    obtain ⟨_, rfl, right⟩ := (list_beq _ _).1 second
    exact (list_beq _ _).2 ⟨_, rfl, ih left right⟩
  | set element ih =>
    obtain ⟨_, rfl, left⟩ := (set_beq _ _).1 first
    obtain ⟨_, rfl, right⟩ := (set_beq _ _).1 second
    exact (set_beq _ _).2 ⟨_, rfl, ih left right⟩
  | map element ih =>
    obtain ⟨_, rfl, left⟩ := (map_beq _ _).1 first
    obtain ⟨_, rfl, right⟩ := (map_beq _ _).1 second
    exact (map_beq _ _).2 ⟨_, rfl, ih left right⟩
  | tuple slots ih =>
    obtain ⟨_, rfl, left⟩ := (tuple_beq _ _).1 first
    obtain ⟨_, rfl, right⟩ := (tuple_beq _ _).1 second
    exact (tuple_beq _ _).2 ⟨_, rfl, Paired.trans left right fun a ha _ _ _ _ => ih a ha⟩
  | object attributes ih =>
    obtain ⟨_, rfl, left⟩ := (object_beq _ _).1 first
    obtain ⟨_, rfl, right⟩ := (object_beq _ _).1 second
    exact (object_beq _ _).2 ⟨_, rfl, left.trans right fun a ha _ _ _ _ => ih a ha⟩
  | _ => simp_all

end TypedTree.Shape
