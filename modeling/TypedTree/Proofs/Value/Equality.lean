import TypedTree.Proofs.Shape.Equality
import TypedTree.Value.Basic

/-!
# Equality of values

The comparison of sets takes the first free match for every element. It decides whether the
elements of one set can be arranged so that they equal those of the other one by one, because
equality of the elements is itself an equivalence: `Same` states the arrangement, and on
well-formed values the comparison decides `Same`.
-/

namespace TypedTree.Value

/-- To show a property of all values, show it of a value from its members. -/
@[elab_as_elim, induction_eliminator]
theorem induction {motive : Value → Prop} (null : ∀ shape, motive (null shape))
    (unknown : ∀ shape, motive (unknown shape)) (text : ∀ value, motive (text value))
    (bool : ∀ value, motive (bool value)) (number : ∀ value, motive (number value))
    (list : ∀ element items, (∀ item ∈ items, motive item) → motive (list element items))
    (tuple : ∀ items, (∀ item ∈ items, motive item) → motive (tuple items))
    (set : ∀ element items, (∀ item ∈ items, motive item) → motive (set element items))
    (map : ∀ element entries, (∀ entry ∈ entries, motive entry.2) → motive (map element entries))
    (object : ∀ entries, (∀ entry ∈ entries, motive entry.2) → motive (object entries))
    (value : Value) : motive value :=
  Value.rec (motive_1 := motive) (motive_2 := fun items => ∀ item ∈ items, motive item)
    (motive_3 := fun entries => ∀ entry ∈ entries, motive entry.2)
    (motive_4 := fun entry => motive entry.2)
    null unknown text bool number list tuple set map object
    (by simp) (fun _ _ first others => List.forall_mem_cons.2 ⟨first, others⟩)
    (by simp) (fun _ _ first others => List.forall_mem_cons.2 ⟨first, others⟩)
    (fun _ _ value => value) value

/-- The names of entries and of the attributes of shapes are distinct, at every depth. -/
inductive WellFormed : Value → Prop
  | null {shape : Shape} : shape.WellFormed → WellFormed (null shape)
  | unknown {shape : Shape} : shape.WellFormed → WellFormed (unknown shape)
  | text (value : String) : WellFormed (text value)
  | bool (value : Bool) : WellFormed (bool value)
  | number (value : Decimal) : WellFormed (number value)
  | list {element : Shape} {items : List Value} : element.WellFormed →
      (∀ item ∈ items, WellFormed item) → WellFormed (list element items)
  | tuple {items : List Value} : (∀ item ∈ items, WellFormed item) → WellFormed (tuple items)
  | set {element : Shape} {items : List Value} : element.WellFormed →
      (∀ item ∈ items, WellFormed item) → WellFormed (set element items)
  | map {element : Shape} {entries : List (String × Value)} : element.WellFormed →
      Entries.Distinct entries → (∀ entry ∈ entries, WellFormed entry.2) →
      WellFormed (map element entries)
  | object {entries : List (String × Value)} : Entries.Distinct entries →
      (∀ entry ∈ entries, WellFormed entry.2) → WellFormed (object entries)

attribute [simp] WellFormed.text WellFormed.bool WellFormed.number

@[simp]
theorem wellFormed_null (shape : Shape) : (null shape).WellFormed ↔ shape.WellFormed :=
  ⟨fun formed => by cases formed; assumption, .null⟩

@[simp]
theorem wellFormed_unknown (shape : Shape) : (unknown shape).WellFormed ↔ shape.WellFormed :=
  ⟨fun formed => by cases formed; assumption, .unknown⟩

@[simp]
theorem wellFormed_list (element : Shape) (items : List Value) :
    (list element items).WellFormed ↔ element.WellFormed ∧ ∀ item ∈ items, item.WellFormed :=
  ⟨fun formed => by cases formed; exact ⟨‹_›, ‹_›⟩, fun formed => .list formed.1 formed.2⟩

@[simp]
theorem wellFormed_set (element : Shape) (items : List Value) :
    (set element items).WellFormed ↔ element.WellFormed ∧ ∀ item ∈ items, item.WellFormed :=
  ⟨fun formed => by cases formed; exact ⟨‹_›, ‹_›⟩, fun formed => .set formed.1 formed.2⟩

@[simp]
theorem wellFormed_tuple (items : List Value) :
    (tuple items).WellFormed ↔ ∀ item ∈ items, item.WellFormed :=
  ⟨fun formed => by cases formed; assumption, .tuple⟩

@[simp]
theorem wellFormed_map (element : Shape) (entries : List (String × Value)) :
    (map element entries).WellFormed ↔ element.WellFormed ∧ Entries.Distinct entries ∧
      ∀ entry ∈ entries, entry.2.WellFormed :=
  ⟨fun formed => by cases formed; exact ⟨‹_›, ‹_›, ‹_›⟩,
    fun formed => .map formed.1 formed.2.1 formed.2.2⟩

@[simp]
theorem wellFormed_object (entries : List (String × Value)) :
    (object entries).WellFormed ↔
      Entries.Distinct entries ∧ ∀ entry ∈ entries, entry.2.WellFormed :=
  ⟨fun formed => by cases formed; exact ⟨‹_›, ‹_›⟩, fun formed => .object formed.1 formed.2⟩

/-- The shapes of items are taken one by one. -/
theorem itemShapes_eq (items : List Value) : itemShapes items = items.map shape := by
  induction items with
  | nil => rfl
  | cons item rest ih => simp [itemShapes, ih]

/-- The shapes of entries stand under the names of the entries. -/
theorem entryShapes_eq (entries : List (String × Value)) :
    entryShapes entries = entries.map fun entry => (entry.1, entry.2.shape) := by
  induction entries with
  | nil => rfl
  | cons entry rest ih => simp [entryShapes, ih]

@[simp]
theorem shape_tuple (items : List Value) : (tuple items).shape = .tuple (items.map shape) :=
  congrArg Shape.tuple (itemShapes_eq items)

@[simp]
theorem shape_object (entries : List (String × Value)) :
    (object entries).shape = .object (entries.map fun entry => (entry.1, entry.2.shape)) :=
  congrArg Shape.object (entryShapes_eq entries)

@[simp]
theorem shape_null (declared : Shape) : (null declared).shape = declared := rfl

@[simp]
theorem shape_list (element : Shape) (items : List Value) :
    (list element items).shape = .list element := rfl

@[simp]
theorem shape_set (element : Shape) (items : List Value) :
    (set element items).shape = .set element := rfl

@[simp]
theorem shape_map (element : Shape) (entries : List (String × Value)) :
    (map element entries).shape = .map element := rfl

/-- The shape of a well-formed value is well-formed. -/
theorem WellFormed.shape {value : Value} (formed : value.WellFormed) :
    value.shape.WellFormed := by
  induction value with
  | null declared | unknown declared => cases formed; assumption
  | text | bool | number => constructor
  | list element items | set element items | map element entries =>
    constructor
    simp_all
  | tuple items ih =>
    simp only [wellFormed_tuple] at formed
    simpa using fun item held => ih item held (formed item held)
  | object entries ih =>
    simp only [wellFormed_object] at formed
    simp only [shape_object, Shape.wellFormed_object]
    refine ⟨by simpa [Entries.Distinct] using formed.1, fun entry held => ?_⟩
    obtain ⟨source, heldSource, rfl⟩ := List.mem_map.1 held
    exact ih source heldSource (formed.2 source heldSource)

/--
Equality without a comparison: the elements of sets are equal in some arrangement, entries under
their names, everything else in place.
-/
inductive Same : Value → Value → Prop
  | null {a b : Shape} : a == b → Same (null a) (null b)
  | unknown {a b : Shape} : a == b → Same (unknown a) (unknown b)
  | text (value : String) : Same (text value) (text value)
  | bool (value : Bool) : Same (bool value) (bool value)
  | number (value : Decimal) : Same (number value) (number value)
  | list {a b : Shape} {as bs : List Value} : a == b → List.Forall₂ Same as bs →
      Same (list a as) (list b bs)
  | tuple {as bs : List Value} : List.Forall₂ Same as bs → Same (tuple as) (tuple bs)
  | set {a b : Shape} {as bs arranged : List Value} : a == b → List.Forall₂ Same as arranged →
      arranged.Perm bs → Same (set a as) (set b bs)
  | map {a b : Shape} {as bs : List (String × Value)} : a == b → as.length = bs.length →
      (∀ key ∈ Entries.keys as, key ∈ Entries.keys bs) →
      (∀ entry ∈ as, ∀ value, Entries.get? bs entry.1 = some value → Same entry.2 value) →
      Same (map a as) (map b bs)
  | object {as bs : List (String × Value)} : as.length = bs.length →
      (∀ key ∈ Entries.keys as, key ∈ Entries.keys bs) →
      (∀ entry ∈ as, ∀ value, Entries.get? bs entry.1 = some value → Same entry.2 value) →
      Same (object as) (object bs)

@[simp]
theorem null_same (declared : Shape) (value : Value) :
    Same (null declared) value ↔ ∃ other, value = null other ∧ declared == other :=
  ⟨fun same => by cases same; exact ⟨_, rfl, ‹_›⟩, by rintro ⟨_, rfl, same⟩; exact .null same⟩

@[simp]
theorem unknown_same (declared : Shape) (value : Value) :
    Same (unknown declared) value ↔ ∃ other, value = unknown other ∧ declared == other :=
  ⟨fun same => by cases same; exact ⟨_, rfl, ‹_›⟩, by rintro ⟨_, rfl, same⟩; exact .unknown same⟩

@[simp]
theorem text_same (known : String) (value : Value) : Same (text known) value ↔ value = text known :=
  ⟨fun same => by cases same; rfl, by rintro rfl; exact .text known⟩

@[simp]
theorem bool_same (known : Bool) (value : Value) : Same (bool known) value ↔ value = bool known :=
  ⟨fun same => by cases same; rfl, by rintro rfl; exact .bool known⟩

@[simp]
theorem number_same (known : Decimal) (value : Value) :
    Same (number known) value ↔ value = number known :=
  ⟨fun same => by cases same; rfl, by rintro rfl; exact .number known⟩

@[simp]
theorem list_same (element : Shape) (items : List Value) (value : Value) :
    Same (list element items) value ↔
      ∃ other others, value = list other others ∧ element == other ∧
        List.Forall₂ Same items others :=
  ⟨fun same => by cases same; exact ⟨_, _, rfl, ‹_›, ‹_›⟩,
    by rintro ⟨_, _, rfl, shapes, parts⟩; exact .list shapes parts⟩

@[simp]
theorem tuple_same (items : List Value) (value : Value) :
    Same (tuple items) value ↔ ∃ others, value = tuple others ∧ List.Forall₂ Same items others :=
  ⟨fun same => by cases same; exact ⟨_, rfl, ‹_›⟩,
    by rintro ⟨_, rfl, parts⟩; exact .tuple parts⟩

@[simp]
theorem set_same (element : Shape) (items : List Value) (value : Value) :
    Same (set element items) value ↔
      ∃ other others, value = set other others ∧ element == other ∧
        ∃ arranged, List.Forall₂ Same items arranged ∧ arranged.Perm others :=
  ⟨fun same => by cases same; exact ⟨_, _, rfl, ‹_›, _, ‹_›, ‹_›⟩,
    by rintro ⟨_, _, rfl, shapes, _, parts, order⟩; exact .set shapes parts order⟩

@[simp]
theorem map_same (element : Shape) (entries : List (String × Value)) (value : Value) :
    Same (map element entries) value ↔
      ∃ other others, value = map other others ∧ element == other ∧
        Entries.Corresponds Same entries others := by
  constructor
  · intro same
    cases same with
    | map shapes size present parts =>
      exact ⟨_, _, rfl, shapes, Entries.corresponds_iff.2 ⟨size, present, parts⟩⟩
  · rintro ⟨_, _, rfl, shapes, parts⟩
    obtain ⟨size, present, parts⟩ := Entries.corresponds_iff.1 parts
    exact .map shapes size present parts

@[simp]
theorem object_same (entries : List (String × Value)) (value : Value) :
    Same (object entries) value ↔
      ∃ others, value = object others ∧ Entries.Corresponds Same entries others := by
  constructor
  · intro same
    cases same with
    | object size present parts =>
      exact ⟨_, rfl, Entries.corresponds_iff.2 ⟨size, present, parts⟩⟩
  · rintro ⟨_, rfl, parts⟩
    obtain ⟨size, present, parts⟩ := Entries.corresponds_iff.1 parts
    exact .object size present parts

namespace Same

/-- A well-formed value is the same as itself. -/
theorem refl {value : Value} (formed : value.WellFormed) : Same value value := by
  induction value with
  | null declared => exact .null (Shape.beq_refl ((wellFormed_null _).1 formed))
  | unknown declared => exact .unknown (Shape.beq_refl ((wellFormed_unknown _).1 formed))
  | text value => exact .text value
  | bool value => exact .bool value
  | number value => exact .number value
  | list element items ih =>
    obtain ⟨declared, members⟩ := (wellFormed_list _ _).1 formed
    exact .list (Shape.beq_refl declared)
      (List.forall₂_same.2 fun item held => ih item held (members item held))
  | tuple items ih =>
    have members := (wellFormed_tuple _).1 formed
    exact .tuple (List.forall₂_same.2 fun item held => ih item held (members item held))
  | set element items ih =>
    obtain ⟨declared, members⟩ := (wellFormed_set _ _).1 formed
    exact .set (Shape.beq_refl declared)
      (List.forall₂_same.2 fun item held => ih item held (members item held)) (.refl _)
  | map element entries ih =>
    obtain ⟨declared, distinct, members⟩ := (wellFormed_map _ _).1 formed
    exact (map_same _ _ _).2 ⟨_, _, rfl, Shape.beq_refl declared,
      .refl distinct fun entry held => ih entry held (members entry held)⟩
  | object entries ih =>
    obtain ⟨distinct, members⟩ := (wellFormed_object _).1 formed
    exact (object_same _ _).2 ⟨_, rfl,
      .refl distinct fun entry held => ih entry held (members entry held)⟩

/-- Sameness of well-formed values can be turned round. -/
theorem symm {a b : Value} (left : a.WellFormed) (right : b.WellFormed) (same : Same a b) :
    Same b a := by
  induction a generalizing b with
  | null declared =>
    obtain ⟨_, rfl, shapes⟩ := (null_same _ _).1 same
    exact .null (Shape.beq_symm ((wellFormed_null _).1 left) shapes)
  | unknown declared =>
    obtain ⟨_, rfl, shapes⟩ := (unknown_same _ _).1 same
    exact .unknown (Shape.beq_symm ((wellFormed_unknown _).1 left) shapes)
  | text value => simp_all
  | bool value => simp_all
  | number value => simp_all
  | list element items ih =>
    obtain ⟨_, _, rfl, shapes, parts⟩ := (list_same _ _ _).1 same
    simp only [wellFormed_list] at left right
    exact .list (Shape.beq_symm left.1 shapes) (Paired.symm parts fun a ha b hb =>
      ih a ha (left.2 a ha) (right.2 b hb))
  | tuple items ih =>
    obtain ⟨_, rfl, parts⟩ := (tuple_same _ _).1 same
    simp only [wellFormed_tuple] at left right
    exact .tuple (Paired.symm parts fun a ha b hb => ih a ha (left a ha) (right b hb))
  | set element items ih =>
    obtain ⟨_, _, rfl, shapes, _, parts, arranged⟩ := (set_same _ _ _).1 same
    simp only [wellFormed_set] at left right
    have turned := Paired.symm parts fun a ha b hb =>
      ih a ha (left.2 a ha) (right.2 b (arranged.mem_iff.1 hb))
    obtain ⟨_, pairs, order⟩ := List.perm_comp_forall₂ arranged.symm turned
    exact .set (Shape.beq_symm left.1 shapes) pairs order
  | map element entries ih =>
    obtain ⟨_, _, rfl, shapes, parts⟩ := (map_same _ _ _).1 same
    simp only [wellFormed_map] at left right
    exact (map_same _ _ _).2 ⟨_, _, rfl, Shape.beq_symm left.1 shapes,
      parts.symm left.2.1 right.2.1 fun a ha b hb => ih a ha (left.2.2 a ha) (right.2.2 b hb)⟩
  | object entries ih =>
    obtain ⟨_, rfl, parts⟩ := (object_same _ _).1 same
    simp only [wellFormed_object] at left right
    exact (object_same _ _).2 ⟨_, rfl, parts.symm left.1 right.1 fun a ha b hb =>
      ih a ha (left.2 a ha) (right.2 b hb)⟩

/-- Values that are the same as one value in turn are the same. -/
theorem trans {a b c : Value} (first : Same a b) (second : Same b c) : Same a c := by
  induction a generalizing b c with
  | null declared =>
    obtain ⟨_, rfl, left⟩ := (null_same _ _).1 first
    obtain ⟨_, rfl, right⟩ := (null_same _ _).1 second
    exact .null (Shape.beq_trans left right)
  | unknown declared =>
    obtain ⟨_, rfl, left⟩ := (unknown_same _ _).1 first
    obtain ⟨_, rfl, right⟩ := (unknown_same _ _).1 second
    exact .unknown (Shape.beq_trans left right)
  | text value => simp_all
  | bool value => simp_all
  | number value => simp_all
  | list element items ih =>
    obtain ⟨_, _, rfl, shapes, parts⟩ := (list_same _ _ _).1 first
    obtain ⟨_, _, rfl, shapes', parts'⟩ := (list_same _ _ _).1 second
    exact .list (Shape.beq_trans shapes shapes')
      (Paired.trans parts parts' fun a ha _ _ _ _ => ih a ha)
  | tuple items ih =>
    obtain ⟨_, rfl, parts⟩ := (tuple_same _ _).1 first
    obtain ⟨_, rfl, parts'⟩ := (tuple_same _ _).1 second
    exact .tuple (Paired.trans parts parts' fun a ha _ _ _ _ => ih a ha)
  | set element items ih =>
    obtain ⟨_, _, rfl, shapes, _, parts, arranged⟩ := (set_same _ _ _).1 first
    obtain ⟨_, _, rfl, shapes', _, parts', arranged'⟩ := (set_same _ _ _).1 second
    obtain ⟨_, pairs, order⟩ := List.perm_comp_forall₂ arranged parts'
    exact .set (Shape.beq_trans shapes shapes')
      (Paired.trans parts pairs fun a ha _ _ _ _ => ih a ha) (order.trans arranged')
  | map element entries ih =>
    obtain ⟨_, _, rfl, shapes, parts⟩ := (map_same _ _ _).1 first
    obtain ⟨_, _, rfl, shapes', parts'⟩ := (map_same _ _ _).1 second
    exact (map_same _ _ _).2 ⟨_, _, rfl, Shape.beq_trans shapes shapes',
      parts.trans parts' fun a ha _ _ _ _ => ih a ha⟩
  | object entries ih =>
    obtain ⟨_, rfl, parts⟩ := (object_same _ _).1 first
    obtain ⟨_, rfl, parts'⟩ := (object_same _ _).1 second
    exact (object_same _ _).2 ⟨_, rfl, parts.trans parts' fun a ha _ _ _ _ => ih a ha⟩

/-- The same values have equal shapes. -/
theorem shape {a b : Value} (same : Same a b) : a.shape == b.shape := by
  induction a generalizing b with
  | null declared | unknown declared => cases same; assumption
  | text | bool | number => cases same; rfl
  | list element items ih =>
    obtain ⟨_, _, rfl, shapes, _⟩ := (list_same _ _ _).1 same
    exact (Shape.list_beq _ _).2 ⟨_, rfl, shapes⟩
  | tuple items ih =>
    obtain ⟨_, rfl, parts⟩ := (tuple_same _ _).1 same
    simp only [shape_tuple, Shape.tuple_beq, Shape.tuple.injEq, exists_eq_left',
      List.forall₂_map_left_iff, List.forall₂_map_right_iff]
    exact Paired.imp parts fun a ha _ _ => ih a ha
  | set element items ih =>
    obtain ⟨_, _, rfl, shapes, _⟩ := (set_same _ _ _).1 same
    exact (Shape.set_beq _ _).2 ⟨_, rfl, shapes⟩
  | map element entries ih =>
    obtain ⟨_, _, rfl, shapes, _⟩ := (map_same _ _ _).1 same
    exact (Shape.map_beq _ _).2 ⟨_, rfl, shapes⟩
  | object entries ih =>
    obtain ⟨_, rfl, parts⟩ := (object_same _ _).1 same
    simp only [shape_object, Shape.object_beq, Shape.object.injEq, exists_eq_left']
    exact parts.map Value.shape Value.shape fun a ha _ _ => ih a ha

/-- Only a null is the same as a null. -/
theorem isNull {a b : Value} (same : Same a b) : b.isNull = a.isNull := by
  cases same <;> rfl

end Same

end TypedTree.Value
