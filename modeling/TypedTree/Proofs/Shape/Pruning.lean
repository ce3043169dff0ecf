import Mathlib.Data.List.ReduceOption
import TypedTree.Proofs.Json.Pruning
import TypedTree.Proofs.Shape.Equality

/-!
# Shapes of pruned documents

The inferred shape of a document decides what the shape of the pruned document will be. The parts
that are `dynamic` are those of nulls; they are taken out, and with them the collections that held
nothing else. What is left of a tuple is inferred anew, since slots that differed in what was taken
out may be equal now. Equal shapes have equal pruned shapes.
-/

namespace TypedTree.Shape

/-- The inferred shape of a sequence of items of given shapes: a list when they are all equal. -/
def ofItems : List Shape → Shape
  | [] => tuple []
  | first :: rest => if rest.all (· == first) then list first else tuple (first :: rest)

mutual

/-- The shape without the parts of nulls; `none` if nothing is left of it. -/
def pruned : Shape → Option Shape
  | string => some string
  | bool => some bool
  | number => some number
  | dynamic => none
  | list element => (pruned element).map list
  | set element => (pruned element).map set
  | map element => (pruned element).map map
  | tuple slots => (remaining slots (prunedSlots slots)).map ofItems
  | object attributes => (remaining attributes (prunedAttributes attributes)).map object
termination_by structural shape => shape

/-- What is left of slots, in order. -/
def prunedSlots : List Shape → List Shape
  | [] => []
  | slot :: rest => (pruned slot).toList ++ prunedSlots rest
termination_by structural slots => slots

/-- What is left of attributes, under their names and in order. -/
def prunedAttributes : List (String × Shape) → List (String × Shape)
  | [] => []
  | (name, shape) :: rest =>
    (pruned shape).toList.map (fun left => (name, left)) ++ prunedAttributes rest
termination_by structural attributes => attributes

end

/-- The names of what is left of attributes are among the names of all of them, in order. -/
theorem keys_prunedAttributes (attributes : List (String × Shape)) :
    (Entries.keys (prunedAttributes attributes)).Sublist (Entries.keys attributes) := by
  induction attributes with
  | nil => exact .slnil
  | cons entry rest ih =>
    obtain ⟨name, shape⟩ := entry
    rw [prunedAttributes]
    cases pruned shape with
    | none => exact ih.cons name
    | some left => exact ih.cons_cons name

/-! ## Names -/

/-- What is left of a slot comes from that slot. -/
theorem mem_prunedSlots {slots : List Shape} {left : Shape} (held : left ∈ prunedSlots slots) :
    ∃ slot ∈ slots, slot.pruned = some left := by
  induction slots with
  | nil => cases held
  | cons slot rest ih =>
    rcases List.mem_append.1 held with here | later
    · exact ⟨slot, List.mem_cons_self, Option.mem_toList.1 here⟩
    · obtain ⟨other, there, same⟩ := ih later
      exact ⟨other, List.mem_cons_of_mem _ there, same⟩

/-- What is left of an attribute comes from the one of its name. -/
theorem mem_prunedAttributes {attributes : List (String × Shape)} {left : String × Shape}
    (held : left ∈ prunedAttributes attributes) :
    ∃ shape, (left.1, shape) ∈ attributes ∧ shape.pruned = some left.2 := by
  induction attributes with
  | nil => cases held
  | cons entry rest ih =>
    obtain ⟨name, shape⟩ := entry
    rcases List.mem_append.1 held with here | later
    · obtain ⟨kept, same, rfl⟩ := List.mem_map.1 here
      exact ⟨shape, List.mem_cons_self, Option.mem_toList.1 same⟩
    · obtain ⟨other, there, same⟩ := ih later
      exact ⟨other, List.mem_cons_of_mem _ there, same⟩

/-- The inferred shape of items of well-formed shapes is well-formed. -/
theorem wellFormed_ofItems {shapes : List Shape} (formed : ∀ shape ∈ shapes, shape.WellFormed) :
    (ofItems shapes).WellFormed := by
  unfold ofItems
  split
  · exact .tuple formed
  · split
    · exact .list (formed _ List.mem_cons_self)
    · exact .tuple formed

/-- What is left of a shape of distinct names has distinct names. -/
theorem WellFormed.pruned {shape left : Shape} (formed : shape.WellFormed)
    (same : shape.pruned = some left) : left.WellFormed := by
  induction shape generalizing left with
  | string | bool | number =>
    obtain rfl := Option.some.inj same
    exact formed
  | dynamic => cases same
  | list element ih | set element ih | map element ih =>
    obtain ⟨inner, own, rfl⟩ := Option.map_eq_some_iff.1 same
    have part := ih (by simpa using formed) own
    simpa using part
  | tuple slots ih =>
    rw [wellFormed_tuple] at formed
    obtain ⟨kept, own, rfl⟩ := Option.map_eq_some_iff.1 same
    obtain ⟨_, rfl⟩ := remaining_eq_some.1 own
    refine wellFormed_ofItems fun inner held => ?_
    obtain ⟨slot, there, same⟩ := mem_prunedSlots held
    exact ih slot there (formed slot there) same
  | object attributes ih =>
    rw [wellFormed_object] at formed
    obtain ⟨kept, own, rfl⟩ := Option.map_eq_some_iff.1 same
    obtain ⟨_, rfl⟩ := remaining_eq_some.1 own
    refine .object ((keys_prunedAttributes attributes).nodup formed.1) fun entry held => ?_
    obtain ⟨inner, there, same⟩ := mem_prunedAttributes held
    exact ih _ there (formed.2 _ there) same

/-! ## Equality -/

/-- Of slots that are left alike, one by one, what is left is equal one by one. -/
theorem forall₂_prunedSlots {as bs : List Shape}
    (same : List.Forall₂ (fun a b => Option.Rel (fun a b => a == b) a.pruned b.pruned) as bs) :
    List.Forall₂ (fun a b => a == b) (prunedSlots as) (prunedSlots bs) := by
  induction same with
  | nil => exact .nil
  | @cons a b as bs first _ ih =>
    rw [prunedSlots, prunedSlots]
    generalize a.pruned = left, b.pruned = right at first
    cases first with
    | none => exact ih
    | some equal => exact .cons equal ih

/-- Of attributes that are left alike, one by one, what is left is equal under the same names. -/
theorem aligned_prunedAttributes {as bs : List (String × Shape)}
    (same : Entries.Aligned (fun a b => Option.Rel (fun a b => a == b) a.pruned b.pruned) as bs) :
    Entries.Aligned (fun a b => a == b) (prunedAttributes as) (prunedAttributes bs) := by
  induction same with
  | nil => exact .nil
  | @cons a b as bs first _ ih =>
    obtain ⟨name, left⟩ := a
    obtain ⟨other, right⟩ := b
    obtain ⟨rfl, first⟩ := first
    rw [prunedAttributes, prunedAttributes]
    generalize left.pruned = left, right.pruned = right at first
    cases first with
    | none => exact ih
    | some equal => exact .cons ⟨rfl, equal⟩ ih

/-- What is left of attributes moves with them. -/
theorem prunedAttributes_perm {as bs : List (String × Shape)} (moved : as.Perm bs) :
    (prunedAttributes as).Perm (prunedAttributes bs) := by
  have spelled (attributes : List (String × Shape)) : prunedAttributes attributes =
      attributes.flatMap fun entry => entry.2.pruned.toList.map fun left => (entry.1, left) := by
    induction attributes with
    | nil => rfl
    | cons entry rest ih => rw [List.flatMap_cons, ← ih, prunedAttributes]
  rw [spelled, spelled]
  exact moved.flatMap_right _

/-- Whether shapes are all equal to one of them is the same for equal shapes. -/
theorem all_beq_congr {first other : Shape} {as bs : List Shape} (formed : first.WellFormed)
    (shapes : ∀ a ∈ as, a.WellFormed) (same : first == other)
    (equal : List.Forall₂ (fun a b => a == b) as bs) :
    as.all (· == first) = bs.all (· == other) := by
  induction equal with
  | nil => rfl
  | @cons a b as bs here _ ih =>
    obtain ⟨shape, shapes⟩ := List.forall_mem_cons.1 shapes
    have both : (a == first) = (b == other) := by
      rw [Bool.eq_iff_iff]
      constructor
      · intro alike
        exact beq_trans (beq_symm shape here) (beq_trans alike same)
      · intro alike
        exact beq_trans here (beq_trans alike (beq_symm formed same))
    rw [List.all_cons, List.all_cons, both, ih shapes]

/-- Sequences of equal shapes, one by one, have equal inferred shapes. -/
theorem ofItems_congr {as bs : List Shape} (formed : ∀ a ∈ as, a.WellFormed)
    (equal : List.Forall₂ (fun a b => a == b) as bs) : ofItems as == ofItems bs := by
  cases equal with
  | nil => exact beq_refl (.tuple (by simp))
  | @cons a b as bs first others =>
    obtain ⟨shape, shapes⟩ := List.forall_mem_cons.1 formed
    rw [ofItems, ofItems, all_beq_congr shape shapes first others]
    split
    · exact (list_beq _ _).2 ⟨b, rfl, first⟩
    · exact (tuple_beq _ _).2 ⟨_, rfl, .cons first others⟩

/-- Of equal shapes equal ones are left, if anything is. -/
theorem pruned_congr {a b : Shape} (formed : a.WellFormed) (same : a == b) :
    Option.Rel (fun a b => a == b) a.pruned b.pruned := by
  induction a generalizing b with
  | string =>
    obtain rfl := (string_beq b).1 same
    exact .some same
  | bool =>
    obtain rfl := (bool_beq b).1 same
    exact .some same
  | number =>
    obtain rfl := (number_beq b).1 same
    exact .some same
  | dynamic =>
    obtain rfl := (dynamic_beq b).1 same
    exact .none
  | list element ih =>
    obtain ⟨other, rfl, inner⟩ := (list_beq _ _).1 same
    exact rel_map (ih (by simpa using formed) inner) fun _ b equal =>
      (list_beq _ _).2 ⟨b, rfl, equal⟩
  | set element ih =>
    obtain ⟨other, rfl, inner⟩ := (set_beq _ _).1 same
    exact rel_map (ih (by simpa using formed) inner) fun _ b equal =>
      (set_beq _ _).2 ⟨b, rfl, equal⟩
  | map element ih =>
    obtain ⟨other, rfl, inner⟩ := (map_beq _ _).1 same
    exact rel_map (ih (by simpa using formed) inner) fun _ b equal =>
      (map_beq _ _).2 ⟨b, rfl, equal⟩
  | tuple slots ih =>
    obtain ⟨others, rfl, inner⟩ := (tuple_beq _ _).1 same
    rw [wellFormed_tuple] at formed
    have kept := forall₂_prunedSlots (Paired.imp inner fun slot held _ _ equal =>
      ih slot held (formed slot held) equal)
    have shapes (left : Shape) (held : left ∈ prunedSlots slots) : left.WellFormed := by
      obtain ⟨slot, there, own⟩ := mem_prunedSlots held
      exact (formed slot there).pruned own
    exact rel_map (R := fun as bs => ofItems as == ofItems bs)
      (remaining_rel inner.length_eq kept.length_eq (ofItems_congr shapes kept))
      fun _ _ equal => equal
  | object attributes ih =>
    obtain ⟨others, rfl, inner⟩ := (object_beq _ _).1 same
    rw [wellFormed_object] at formed
    obtain ⟨arranged, aligned, moved⟩ := inner.exists_aligned formed.1
    have kept := aligned_prunedAttributes (Paired.imp aligned fun entry held _ _ equal =>
      ⟨equal.1, ih entry held (formed.2 entry held) equal.2⟩)
    have names := (keys_prunedAttributes attributes).nodup formed.1
    have distinct := (inner.keys_perm formed.1).nodup_iff.1 formed.1
    have corresponds := Entries.Aligned.corresponds_of_perm kept (.refl _)
      (prunedAttributes_perm moved) names ((keys_prunedAttributes others).nodup distinct)
    exact rel_map (remaining_rel inner.1 corresponds.1 corresponds) fun _ bs equal =>
      (object_beq _ _).2 ⟨bs, rfl, equal⟩

end TypedTree.Shape
