import TypedTree.Proofs.Shape.Acceptance

/-!
# The order of acceptance

Acceptance orders the shapes of distinct names: it is reflexive and transitive, two shapes accept
each other just when they are equal, and `dynamic` is the greatest of them. Below `dynamic` the
order is that of the parts, so a shape without `dynamic` in it has nothing below it but itself.
-/

namespace TypedTree.Shape

/-- What a shape accepts, it accepts all that this accepts. -/
theorem accepts_trans {a b c : Shape} (first : a.accepts b = true) (second : b.accepts c = true) :
    a.accepts c = true := by
  induction a generalizing b c with
  | dynamic => exact dynamic_accepts c
  | string | bool | number => simp_all
  | list element ih =>
    obtain ⟨_, rfl, left⟩ := (list_accepts _ _).1 first
    obtain ⟨_, rfl, right⟩ := (list_accepts _ _).1 second
    exact (list_accepts _ _).2 ⟨_, rfl, ih left right⟩
  | set element ih =>
    obtain ⟨_, rfl, left⟩ := (set_accepts _ _).1 first
    obtain ⟨_, rfl, right⟩ := (set_accepts _ _).1 second
    exact (set_accepts _ _).2 ⟨_, rfl, ih left right⟩
  | map element ih =>
    obtain ⟨_, rfl, left⟩ := (map_accepts _ _).1 first
    obtain ⟨_, rfl, right⟩ := (map_accepts _ _).1 second
    exact (map_accepts _ _).2 ⟨_, rfl, ih left right⟩
  | tuple slots ih =>
    obtain ⟨_, rfl, left⟩ := (tuple_accepts _ _).1 first
    obtain ⟨_, rfl, right⟩ := (tuple_accepts _ _).1 second
    exact (tuple_accepts _ _).2 ⟨_, rfl, Paired.trans left right fun a held _ _ _ _ => ih a held⟩
  | object attributes ih =>
    obtain ⟨_, rfl, left⟩ := (object_accepts _ _).1 first
    obtain ⟨_, rfl, right⟩ := (object_accepts _ _).1 second
    exact (object_accepts _ _).2 ⟨_, rfl, left.trans right fun a held _ _ _ _ => ih a held⟩

/-- Only `dynamic` accepts `dynamic`. -/
theorem accepts_dynamic (shape : Shape) : shape.accepts dynamic = true ↔ shape = dynamic := by
  cases shape <;> simp

/-- Shapes that accept each other are equal. -/
theorem beq_of_accepts_accepts {a b : Shape} (formed : a.WellFormed) (first : a.accepts b = true)
    (second : b.accepts a = true) : a == b := by
  induction a generalizing b with
  | dynamic => exact (dynamic_beq b).2 ((accepts_dynamic b).1 second)
  | string | bool | number => simp_all
  | list element ih =>
    obtain ⟨_, rfl, left⟩ := (list_accepts _ _).1 first
    obtain ⟨_, same, right⟩ := (list_accepts _ _).1 second
    obtain rfl := list.inj same
    exact (list_beq _ _).2 ⟨_, rfl, ih ((wellFormed_list _).1 formed) left right⟩
  | set element ih =>
    obtain ⟨_, rfl, left⟩ := (set_accepts _ _).1 first
    obtain ⟨_, same, right⟩ := (set_accepts _ _).1 second
    obtain rfl := set.inj same
    exact (set_beq _ _).2 ⟨_, rfl, ih ((wellFormed_set _).1 formed) left right⟩
  | map element ih =>
    obtain ⟨_, rfl, left⟩ := (map_accepts _ _).1 first
    obtain ⟨_, same, right⟩ := (map_accepts _ _).1 second
    obtain rfl := map.inj same
    exact (map_beq _ _).2 ⟨_, rfl, ih ((wellFormed_map _).1 formed) left right⟩
  | tuple slots ih =>
    obtain ⟨others, rfl, left⟩ := (tuple_accepts _ _).1 first
    obtain ⟨_, same, right⟩ := (tuple_accepts _ _).1 second
    obtain rfl := tuple.inj same
    rw [wellFormed_tuple] at formed
    have both := List.Forall₂.mp (fun _ _ below above => And.intro below above) left right.flip
    exact (tuple_beq _ _).2 ⟨others, rfl, Paired.imp both fun slot held _ _ admits =>
      ih slot held (formed slot held) admits.1 admits.2⟩
  | object attributes ih =>
    obtain ⟨others, rfl, left⟩ := (object_accepts _ _).1 first
    obtain ⟨_, same, right⟩ := (object_accepts _ _).1 second
    obtain rfl := object.inj same
    rw [wellFormed_object] at formed
    refine (object_beq _ _).2 ⟨others, rfl, left.1, fun entry held => ?_⟩
    obtain ⟨other, found, below⟩ := left.2 entry held
    -- the way back leads to the same attribute, as its name stands once
    obtain ⟨back, foundBack, above⟩ := right.get? found
    obtain rfl := Entries.eq_of_get? formed.1 held foundBack
    exact ⟨other, found, ih entry held (formed.2 entry held) below above⟩

/-- Equal shapes accept equal shapes. -/
theorem accepts_congr {a b c d : Shape} (left : a.WellFormed) (right : c.WellFormed)
    (same : a == b) (alike : c == d) : a.accepts c = b.accepts d := by
  rw [Bool.eq_iff_iff]
  constructor
  · intro admits
    exact accepts_trans (accepts_of_beq (beq_symm left same))
      (accepts_trans admits (accepts_of_beq alike))
  · intro admits
    exact accepts_trans (accepts_of_beq same)
      (accepts_trans admits (accepts_of_beq (beq_symm right alike)))

/-- The shape of the elements of a well-formed shape is well-formed. -/
theorem WellFormed.element {shape element : Shape} (formed : shape.WellFormed)
    (found : shape.element? = some element) : element.WellFormed := by
  cases formed with
  | list part | set part | map part =>
    obtain rfl := Option.some.inj found
    exact part
  | _ => cases found

/-- Equal shapes have equal shapes for their elements, or none. -/
theorem element?_rel {a b : Shape} (same : a == b) :
    Option.Rel (fun element other => element == other) a.element? b.element? := by
  cases equal_of_beq same with
  | list parts | set parts | map parts => exact .some parts
  | _ => exact .none

/--
Acceptance is a partial order up to equality, for all shapes of distinct names. Every shape accepts
itself and what the shapes accept that it accepts; two shapes accept each other just when they are
equal. `dynamic` accepts every shape and is accepted by no other, and a shape without `dynamic` in
it accepts just the shapes that it equals.
-/
theorem acceptance_is_partial_order {a : Shape} (formed : a.WellFormed) (b c : Shape) :
    a.accepts a = true ∧
      (a.accepts b = true → b.accepts c = true → a.accepts c = true) ∧
      (a.accepts b = true ∧ b.accepts a = true ↔ a == b) ∧
      dynamic.accepts b = true ∧
      (a.accepts dynamic = true ↔ a = dynamic) ∧
      (a.hasDynamic = false → (a.accepts b = true ↔ a == b)) := by
  have mutual_iff : a.accepts b = true ∧ b.accepts a = true ↔ a == b := by
    constructor
    · rintro ⟨first, second⟩
      exact beq_of_accepts_accepts formed first second
    · intro same
      exact ⟨accepts_of_beq same, accepts_of_beq (beq_symm formed same)⟩
  refine ⟨accepts_self formed, accepts_trans, mutual_iff, dynamic_accepts b, accepts_dynamic a, ?_⟩
  exact fun static => ⟨beq_of_accepts static, accepts_of_beq⟩

/-- A record of tags of any shape and a place. -/
def looseRecord : Shape := .object [("tags", .set .dynamic), ("at", .tuple [.number, .dynamic])]

/-- The same record, its tags known to be lists, with its attributes in another order. -/
def closerRecord : Shape :=
  .object [("at", .tuple [.number, .dynamic]), ("tags", .set (.list .dynamic))]

/-- The record with everything known. -/
def tightRecord : Shape := .object [("tags", .set (.list .string)), ("at", .tuple [.number, .bool])]

/-- The loose record accepts the tight one by way of the closer one, and is not accepted by it. -/
theorem tightRecord_below_looseRecord :
    looseRecord.accepts tightRecord = true ∧ tightRecord.accepts looseRecord = false := by
  have loose : looseRecord.WellFormed := by simp [looseRecord, Entries.Distinct]
  have tight : tightRecord.WellFormed := by simp [tightRecord, Entries.Distinct]
  obtain ⟨-, passes, -⟩ := acceptance_is_partial_order loose closerRecord tightRecord
  obtain ⟨-, -, -, -, -, exact_only⟩ := acceptance_is_partial_order tight looseRecord dynamic
  refine ⟨passes (by decide) (by decide), Bool.eq_false_iff.2 fun admits => ?_⟩
  have same : tightRecord == looseRecord := (exact_only (by decide)).1 admits
  exact absurd same (by decide)

end TypedTree.Shape
