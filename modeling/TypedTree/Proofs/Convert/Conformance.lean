import TypedTree.Proofs.Convert.Gathering
import TypedTree.Proofs.Value.Members

/-!
# When a value that is read conforms

A tuple shape of one slot reads sequences of any length, and the value has as many slots as the
sequence has items, so its shape drifts away from the declared one. A list, set or map keeps the
declared element shape nevertheless, and then it holds a member that its own element shape does not
admit. Nothing else keeps a value that is read from conforming.
-/

namespace TypedTree.Value

/-- An item or member that is read under the element shape of a list, set or map. -/
inductive ElementOf : Json → Shape → Json → Shape → Prop
  | list {items : List Json} {element : Shape} {item : Json} : item ∈ items →
      ElementOf (.array items) (.list element) item element
  | set {items : List Json} {element : Shape} {item : Json} : item ∈ items →
      ElementOf (.array items) (.set element) item element
  | map {members : List (String × Json)} {element : Shape} {member : String × Json} :
      member ∈ members → ElementOf (.object members) (.map element) member.2 element

/-- An item or member that is read in a slot of a tuple or under an attribute of an object. -/
inductive SlotOf : Json → Shape → Json → Shape → Prop
  | own {items : List Json} {slots : List Shape} {pair : Json × Shape} :
      slots.length = items.length → pair ∈ items.zip slots →
      SlotOf (.array items) (.tuple slots) pair.1 pair.2
  | only {items : List Json} {slot : Shape} {item : Json} : items.length ≠ 1 → item ∈ items →
      SlotOf (.array items) (.tuple [slot]) item slot
  | named {members : List (String × Json)} {attributes : List (String × Shape)}
      {name : String} {document : Json} {shape : Shape} :
      Entries.get? members name = some document → Entries.get? attributes name = some shape →
      SlotOf (.object members) (.object attributes) document shape

/--
A document drifts from a shape when a tuple shape of one slot is spread over a sequence of another
length, here or at a place that is reached through slots and attributes alone.
-/
inductive Drifts : Json → Shape → Prop
  | spread {items : List Json} {slot : Shape} : items.length ≠ 1 →
      Drifts (.array items) (.tuple [slot])
  | slot {document part : Json} {shape slot : Shape} : SlotOf document shape part slot →
      Drifts part slot → Drifts document shape

/-- A document misfits a shape when a list, set or map anywhere in it has a member that drifts. -/
inductive Misfits : Json → Shape → Prop
  | member {document part : Json} {shape element : Shape} :
      ElementOf document shape part element → Drifts part element → Misfits document shape
  | element {document part : Json} {shape element : Shape} :
      ElementOf document shape part element → Misfits part element → Misfits document shape
  | slot {document part : Json} {shape slot : Shape} : SlotOf document shape part slot →
      Misfits part slot → Misfits document shape

theorem elementOf_list {items : List Json} {declared element : Shape} {part : Json} :
    ElementOf (.array items) (.list declared) part element ↔ part ∈ items ∧ element = declared :=
  ⟨fun place => by cases place; exact ⟨‹_›, rfl⟩, by rintro ⟨held, rfl⟩; exact .list held⟩

theorem elementOf_set {items : List Json} {declared element : Shape} {part : Json} :
    ElementOf (.array items) (.set declared) part element ↔ part ∈ items ∧ element = declared :=
  ⟨fun place => by cases place; exact ⟨‹_›, rfl⟩, by rintro ⟨held, rfl⟩; exact .set held⟩

theorem elementOf_map {members : List (String × Json)} {declared element : Shape} {part : Json} :
    ElementOf (.object members) (.map declared) part element ↔
      part ∈ members.map Prod.snd ∧ element = declared := by
  constructor
  · intro place
    cases place with
    | map held => exact ⟨List.mem_map_of_mem held, rfl⟩
  · rintro ⟨held, rfl⟩
    obtain ⟨member, source, rfl⟩ := List.mem_map.1 held
    exact .map source

/-- With as many slots as items every item has its own slot. -/
theorem slotOf_tuple {items : List Json} {slots : List Shape} {part : Json} {slot : Shape}
    (size : slots.length = items.length) :
    SlotOf (.array items) (.tuple slots) part slot ↔ (part, slot) ∈ items.zip slots := by
  constructor
  · intro place
    cases place with
    | own _ held => exact held
    | only more => exact absurd size.symm more
  · exact .own size

/-- One slot that is spread is the slot of every item. -/
theorem slotOf_spread {items : List Json} {part : Json} {declared slot : Shape}
    (more : items.length ≠ 1) :
    SlotOf (.array items) (.tuple [declared]) part slot ↔ part ∈ items ∧ slot = declared := by
  constructor
  · intro place
    cases place with
    | own size => exact absurd size.symm more
    | only _ held => exact ⟨held, rfl⟩
  · rintro ⟨held, rfl⟩
    exact .only more held

theorem slotOf_object {members : List (String × Json)} {attributes : List (String × Shape)}
    {part : Json} {slot : Shape} :
    SlotOf (.object members) (.object attributes) part slot ↔
      ∃ name, Entries.get? members name = some part ∧ Entries.get? attributes name = some slot :=
  ⟨fun place => by cases place; exact ⟨_, ‹_›, ‹_›⟩,
    fun ⟨_, found, declared⟩ => .named found declared⟩

/-- An array with an own slot for every item drifts when an item drifts from its slot. -/
theorem drifts_tuple {items : List Json} {slots : List Shape}
    (size : slots.length = items.length) :
    Drifts (.array items) (.tuple slots) ↔ ∃ pair ∈ items.zip slots, Drifts pair.1 pair.2 := by
  constructor
  · intro drifts
    cases drifts with
    | spread more => exact absurd size.symm more
    | slot place drifts => exact ⟨_, (slotOf_tuple size).1 place, drifts⟩
  · rintro ⟨pair, held, drifts⟩
    exact .slot ((slotOf_tuple size).2 held) drifts

/-- An object drifts when a member drifts from its attribute. -/
theorem drifts_object {members : List (String × Json)} {attributes : List (String × Shape)} :
    Drifts (.object members) (.object attributes) ↔
      ∃ name document shape, Entries.get? members name = some document ∧
        Entries.get? attributes name = some shape ∧ Drifts document shape := by
  constructor
  · intro drifts
    cases drifts with
    | slot place drifts =>
      obtain ⟨name, found, declared⟩ := slotOf_object.1 place
      exact ⟨name, _, _, found, declared, drifts⟩
  · rintro ⟨name, document, shape, found, declared, drifts⟩
    exact .slot (.named found declared) drifts

/-- The declared element shape admits the one that a collection carries. -/
theorem Gathers.accepts {declared element : Shape} {documents : List Json} {members : List Value}
    (gathered : Gathers declared documents element members) (formed : declared.WellFormed) :
    declared.accepts element = true := by
  obtain ⟨_, -, ⟨_, rfl⟩ | ⟨rfl, _⟩, -⟩ := gathered
  · exact Shape.accepts_self formed
  · exact Shape.dynamic_accepts element

/-- Only tuple and object shapes have slots to drift from. -/
theorem not_drifts {document : Json} {shape : Shape} (tuple : ∀ slots, shape ≠ .tuple slots)
    (object : ∀ attributes, shape ≠ .object attributes) : ¬ Drifts document shape := by
  intro drifts
  cases drifts with
  | spread => exact tuple _ rfl
  | slot place =>
    cases place with
    | own | only => exact tuple _ rfl
    | named => exact object _ rfl

/-- Null drifts from no shape. -/
theorem not_drifts_null (shape : Shape) : ¬ Drifts .null shape := by
  intro drifts
  cases drifts with
  | slot place => cases place

/-- A tuple shape accepts what is read under it when each slot accepts what is read in it. -/
theorem Reads.accepts_tuple {items : List Json} {slots : List Shape} {value : Value}
    (read : Reads (.array items) (.tuple slots) value)
    (each : ∀ item ∈ items, ∀ slot ∈ slots, ∀ value, Reads item slot value →
      (slot.accepts value.shape = true ↔ ¬ Drifts item slot)) :
    (Shape.tuple slots).accepts value.shape = true ↔ ¬ Drifts (.array items) (.tuple slots) := by
  obtain ⟨values, rfl, ⟨size, parts⟩ | ⟨slot, rfl, more, parts⟩⟩ := (reads_tuple _ _ _).1 read
  · have slotwise : List.Forall₂ (fun a b => a.accepts b = true) slots (values.map shape) ↔
        List.Forall₂ (fun pair value => pair.2.accepts value.shape = true)
          (items.zip slots) values := by
      conv_lhs => rw [← List.map_snd_zip (Nat.le_of_eq size)]
      rw [List.forall₂_map_left_iff, List.forall₂_map_right_iff]
    have paired := Paired.forall_iff (S := fun pair value => pair.2.accepts value.shape = true)
      parts fun pair held value _ read =>
        each pair.1 (List.of_mem_zip held).1 pair.2 (List.of_mem_zip held).2 value read
    simp only [drifts_tuple size, shape_tuple, Shape.tuple_accepts, Shape.tuple.injEq,
      exists_eq_left', slotwise, paired, not_exists, not_and]
  · have other : values.length ≠ 1 := parts.length_eq ▸ more
    refine iff_of_false (fun accepted => ?_) (not_not.2 (.spread more))
    obtain ⟨_, same, matching⟩ := (Shape.tuple_accepts _ _).1 accepted
    obtain rfl : _ = values.map shape := by simpa [eq_comm] using same
    exact other (by simpa [eq_comm] using matching.length_eq)

/-- An object shape accepts what is read under it when each attribute accepts what is read there. -/
theorem Reads.accepts_object {members : List (String × Json)} {attributes : List (String × Shape)}
    {value : Value} (read : Reads (.object members) (.object attributes) value)
    (distinct : Entries.Distinct members) (apart : Entries.Distinct attributes)
    (formed : ∀ slot ∈ attributes, slot.2.WellFormed)
    (each : ∀ member ∈ members, ∀ slot ∈ attributes, ∀ value,
      Reads member.2 slot.2 value →
        (slot.2.accepts value.shape = true ↔ ¬ Drifts member.2 slot.2)) :
    (Shape.object attributes).accepts value.shape = true ↔
      ¬ Drifts (.object members) (.object attributes) := by
  obtain ⟨entries, rfl, names, inside, parts⟩ := read.object distinct apart
  rw [drifts_object]
  constructor
  · rintro accepted ⟨name, document, shape, found, declared, drifts⟩
    obtain ⟨value, there, read⟩ := parts name shape declared
    rw [found, Option.getD_some] at read
    obtain ⟨_, same, matching⟩ := (Shape.object_accepts _ _).1 accepted
    obtain rfl : _ = _ := (Shape.object.inj ((shape_object entries).symm.trans same)).symm
    obtain ⟨_, rfl, admits⟩ : ∃ other, value.shape = other ∧ shape.accepts other = true := by
      simpa [Entries.get?_map, there] using matching.get? declared
    exact (each _ (Entries.mem_of_get? found) _ (Entries.mem_of_get? declared) value read).1 admits
      drifts
  · intro fits
    refine (Shape.object_accepts _ _).2 ⟨_, shape_object entries, ?_, fun entry held => ?_⟩
    · simpa using names.length_eq.symm
    · have declared := Entries.get?_of_mem apart held
      obtain ⟨value, there, read⟩ := parts entry.1 entry.2 declared
      refine ⟨value.shape, by simp [Entries.get?_map, there], ?_⟩
      cases found : Entries.get? members entry.1 with
      | none =>
        rw [found, Option.getD_none, reads_null] at read
        exact read ▸ Shape.accepts_self (formed entry held)
      | some document =>
        rw [found, Option.getD_some] at read
        exact (each _ (Entries.mem_of_get? found) entry held value read).2 fun drifts =>
          fits ⟨_, _, _, found, declared, drifts⟩

/-- A declared shape accepts the shape of what is read under it unless the document drifts. -/
theorem Reads.accepts_iff {document : Json} {shape : Shape} {value : Value}
    (read : Reads document shape value) (distinct : document.WellFormed)
    (formed : shape.WellFormed) : shape.accepts value.shape = true ↔ ¬ Drifts document shape := by
  induction document generalizing shape value with
  | null =>
    obtain rfl := (reads_null _ _).1 read
    exact iff_of_true (Shape.accepts_self formed) (not_drifts_null _)
  | bool known =>
    obtain ⟨rfl | rfl, rfl⟩ := (reads_bool _ _ _).1 read <;>
      exact iff_of_true rfl (not_drifts (by simp) (by simp))
  | number known =>
    obtain ⟨rfl | rfl, rfl⟩ := (reads_number _ _ _).1 read <;>
      exact iff_of_true rfl (not_drifts (by simp) (by simp))
  | text known =>
    rcases (reads_text _ _ _).1 read with ⟨rfl | rfl, rfl⟩ | ⟨rfl, n, _, rfl⟩ <;>
      exact iff_of_true rfl (not_drifts (by simp) (by simp))
  | array items ih =>
    simp only [Json.wellFormed_array] at distinct
    rcases read.array_shape with ⟨element, rfl⟩ | ⟨element, rfl⟩ | ⟨slots, rfl⟩ | rfl
    · rw [Shape.wellFormed_list] at formed
      obtain ⟨_, _, rfl, gathered⟩ := read.list distinct formed
      exact iff_of_true (by simpa using gathered.accepts formed) (not_drifts (by simp) (by simp))
    · rw [Shape.wellFormed_set] at formed
      obtain ⟨_, _, rfl, gathered⟩ := read.set distinct formed
      exact iff_of_true (by simpa using gathered.accepts formed) (not_drifts (by simp) (by simp))
    · rw [Shape.wellFormed_tuple] at formed
      exact read.accepts_tuple fun item held slot declared _ read =>
        ih item held read (distinct item held) (formed slot declared)
    · exact iff_of_true (Shape.dynamic_accepts _) (not_drifts (by simp) (by simp))
  | object members ih =>
    simp only [Json.wellFormed_object] at distinct
    rcases read.object_shape with ⟨attributes, rfl⟩ | ⟨element, rfl⟩ | rfl
    · rw [Shape.wellFormed_object] at formed
      exact read.accepts_object distinct.1 formed.1 formed.2 fun member held slot declared _ read =>
        ih member held read (distinct.2 member held) (formed.2 slot declared)
    · rw [Shape.wellFormed_map] at formed
      obtain ⟨_, _, rfl, _, gathered⟩ := read.map distinct.2 formed
      exact iff_of_true (by simpa using gathered.accepts formed) (not_drifts (by simp) (by simp))
    · exact iff_of_true (Shape.dynamic_accepts _) (not_drifts (by simp) (by simp))

/-- A member that is gathered is admitted when the declared shape admits the value it came from. -/
theorem Gathers.admits_iff {declared element : Shape} {documents : List Json}
    {members : List Value} (gathered : Gathers declared documents element members)
    (formed : declared.WellFormed) (distinct : ∀ document ∈ documents, document.WellFormed) :
    List.Forall₂ (fun document member => ∃ value, Reads document declared value ∧
      member = value.retypeNull element ∧
      (element.accepts member.shape = true ↔ declared.accepts value.shape = true))
      documents members := by
  obtain ⟨values, parts, unified, rfl⟩ := gathered
  rw [List.forall₂_map_right_iff]
  refine Paired.imp parts fun document _ value held read => ⟨value, read, rfl, ?_⟩
  cases absent : value.isNull with
  | true =>
    obtain rfl := read.isNull_iff.1 absent
    obtain rfl := (reads_null _ _).1 read
    have shape := unified.wellFormed formed (forall_wellFormed distinct formed parts)
    exact iff_of_true (Shape.accepts_self shape) (Shape.accepts_self formed)
  | false =>
    rw [retypeNull_of_present element absent]
    rcases unified with ⟨_, rfl⟩ | ⟨rfl, inferred⟩
    · rfl
    · have same := (inferred.1 value held).resolve_left (by simp [absent])
      exact iff_of_true (Shape.accepts_of_beq same) (Shape.dynamic_accepts _)

/-- The members of a collection fit when no document for one drifts or misfits. -/
theorem Gathers.fits_iff {declared element : Shape} {documents : List Json} {members : List Value}
    (gathered : Gathers declared documents element members) (formed : declared.WellFormed)
    (distinct : ∀ document ∈ documents, document.WellFormed)
    (conforms : ∀ document ∈ documents, ∀ value, Reads document declared value →
      (value.conforms = true ↔ ¬ Misfits document declared)) :
    (∀ member ∈ members, element.accepts member.shape = true ∧ member.conforms = true) ↔
      ∀ document ∈ documents, ¬ Drifts document declared ∧ ¬ Misfits document declared := by
  refine Paired.members_iff (gathered.admits_iff formed distinct) fun document held _ _ source => ?_
  obtain ⟨value, read, rfl, admits⟩ := source
  rw [admits, conforms_retypeNull, read.accepts_iff (distinct document held) formed,
    conforms document held value read]

/-- A list, set or map misfits when a document for one of its members drifts or misfits. -/
theorem not_misfits_collection {document : Json} {shape declared : Shape} {parts : List Json}
    (elements : ∀ part element, ElementOf document shape part element ↔
      part ∈ parts ∧ element = declared)
    (slots : ∀ part slot, ¬ SlotOf document shape part slot) :
    ¬ Misfits document shape ↔
      ∀ part ∈ parts, ¬ Drifts part declared ∧ ¬ Misfits part declared := by
  constructor
  · intro fits part held
    have place := (elements part declared).2 ⟨held, rfl⟩
    exact ⟨fun drifts => fits (.member place drifts), fun misfits => fits (.element place misfits)⟩
  · intro fits misfits
    cases misfits with
    | member place drifts =>
      obtain ⟨held, rfl⟩ := (elements _ _).1 place
      exact (fits _ held).1 drifts
    | element place misfits =>
      obtain ⟨held, rfl⟩ := (elements _ _).1 place
      exact (fits _ held).2 misfits
    | slot place => exact slots _ _ place

/-- A document without elements misfits when one in a slot does. -/
theorem misfits_slots {document : Json} {shape : Shape}
    (elements : ∀ part element, ¬ ElementOf document shape part element) :
    ¬ Misfits document shape ↔
      ∀ part slot, SlotOf document shape part slot → ¬ Misfits part slot := by
  constructor
  · exact fun fits part slot place misfits => fits (.slot place misfits)
  · intro fits misfits
    cases misfits with
    | member place | element place => exact elements _ _ place
    | slot place misfits => exact fits _ _ place misfits

/-- A document without elements and slots does not misfit. -/
theorem not_misfits_leaf {document : Json} {shape : Shape}
    (elements : ∀ part element, ¬ ElementOf document shape part element)
    (slots : ∀ part slot, ¬ SlotOf document shape part slot) : ¬ Misfits document shape :=
  (misfits_slots elements).2 fun part slot place => absurd place (slots part slot)

/-- Nothing misfits where nothing is declared. -/
theorem not_misfits_dynamic (document : Json) : ¬ Misfits document .dynamic :=
  not_misfits_leaf (by rintro _ _ ⟨⟩) (by rintro _ _ ⟨⟩)

/-- A tuple that is read conforms when what is read in each slot does. -/
theorem Reads.conforms_tuple {items : List Json} {slots : List Shape} {value : Value}
    (read : Reads (.array items) (.tuple slots) value)
    (each : ∀ item ∈ items, ∀ slot ∈ slots, ∀ value, Reads item slot value →
      (value.conforms = true ↔ ¬ Misfits item slot)) :
    value.conforms = true ↔ ¬ Misfits (.array items) (.tuple slots) := by
  rw [misfits_slots (by rintro _ _ ⟨⟩)]
  obtain ⟨values, rfl, ⟨size, parts⟩ | ⟨slot, rfl, more, parts⟩⟩ := (reads_tuple _ _ _).1 read
  · simp only [Value.conforms_tuple, slotOf_tuple size]
    rw [Paired.members_iff parts fun pair held value _ read =>
      each pair.1 (List.of_mem_zip held).1 pair.2 (List.of_mem_zip held).2 value read]
    exact Prod.forall
  · simp only [Value.conforms_tuple, slotOf_spread more]
    rw [Paired.members_iff parts fun item held value _ read =>
      each item held slot List.mem_cons_self value read]
    simp

/-- An object that is read conforms when what is read under each attribute does. -/
theorem Reads.conforms_object {members : List (String × Json)}
    {attributes : List (String × Shape)} {value : Value}
    (read : Reads (.object members) (.object attributes) value)
    (distinct : Entries.Distinct members) (apart : Entries.Distinct attributes)
    (each : ∀ member ∈ members, ∀ slot ∈ attributes, ∀ value,
      Reads member.2 slot.2 value → (value.conforms = true ↔ ¬ Misfits member.2 slot.2)) :
    value.conforms = true ↔ ¬ Misfits (.object members) (.object attributes) := by
  rw [misfits_slots (by rintro _ _ ⟨⟩)]
  obtain ⟨entries, rfl, names, inside, parts⟩ := read.object distinct apart
  simp only [Value.conforms_object, slotOf_object]
  constructor
  · rintro conforms part slot ⟨name, found, declared⟩
    obtain ⟨value, there, read⟩ := parts name slot declared
    rw [found, Option.getD_some] at read
    exact (each _ (Entries.mem_of_get? found) _ (Entries.mem_of_get? declared) value read).1
      (conforms _ (Entries.mem_of_get? there))
  · intro fits entry held
    have own : Entries.Distinct entries := names.nodup_iff.2 apart
    obtain ⟨shape, declared⟩ := Entries.exists_get?_of_perm names held
    obtain ⟨value, there, read⟩ := parts entry.1 shape declared
    obtain rfl : value = entry.2 := Entries.eq_of_get? own held there
    cases found : Entries.get? members entry.1 with
    | none =>
      rw [found, Option.getD_none, reads_null] at read
      simp [read]
    | some document =>
      rw [found, Option.getD_some] at read
      exact (each _ (Entries.mem_of_get? found) _ (Entries.mem_of_get? declared) _ read).2
        (fits _ _ ⟨_, found, declared⟩)

/-- A value that is read conforms exactly when no member of a collection in it drifts. -/
theorem Reads.conforms_iff {document : Json} {shape : Shape} {value : Value}
    (read : Reads document shape value) (distinct : document.WellFormed)
    (formed : shape.WellFormed) : value.conforms = true ↔ ¬ Misfits document shape := by
  induction document generalizing shape value with
  | null =>
    obtain rfl := (reads_null _ _).1 read
    exact iff_of_true rfl (not_misfits_leaf (by rintro _ _ ⟨⟩) (by rintro _ _ ⟨⟩))
  | bool known =>
    obtain ⟨_, rfl⟩ := (reads_bool _ _ _).1 read
    exact iff_of_true rfl (not_misfits_leaf (by rintro _ _ ⟨⟩) (by rintro _ _ ⟨⟩))
  | number known =>
    obtain ⟨_, rfl⟩ := (reads_number _ _ _).1 read
    exact iff_of_true rfl (not_misfits_leaf (by rintro _ _ ⟨⟩) (by rintro _ _ ⟨⟩))
  | text known =>
    rcases (reads_text _ _ _).1 read with ⟨_, rfl⟩ | ⟨_, n, _, rfl⟩ <;>
      exact iff_of_true rfl (not_misfits_leaf (by rintro _ _ ⟨⟩) (by rintro _ _ ⟨⟩))
  | array items ih =>
    simp only [Json.wellFormed_array] at distinct
    have elements (declared : Shape) (formed : declared.WellFormed) : ∀ item ∈ items, ∀ value,
        Reads item declared value → (value.conforms = true ↔ ¬ Misfits item declared) :=
      fun item held value read => ih item held read (distinct item held) formed
    rcases read.array_shape with ⟨element, rfl⟩ | ⟨element, rfl⟩ | ⟨slots, rfl⟩ | rfl
    · rw [Shape.wellFormed_list] at formed
      obtain ⟨_, _, rfl, gathered⟩ := read.list distinct formed
      rw [conforms_list, gathered.fits_iff formed distinct (elements element formed),
        not_misfits_collection (fun _ _ => elementOf_list) (by rintro _ _ ⟨⟩)]
    · rw [Shape.wellFormed_set] at formed
      obtain ⟨_, _, rfl, gathered⟩ := read.set distinct formed
      rw [conforms_set, gathered.fits_iff formed distinct (elements element formed),
        not_misfits_collection (fun _ _ => elementOf_set) (by rintro _ _ ⟨⟩)]
    · rw [Shape.wellFormed_tuple] at formed
      exact read.conforms_tuple fun item held slot declared =>
        elements slot (formed slot declared) item held
    · refine iff_of_true ?_ (not_misfits_dynamic _)
      rcases read.sequence distinct with ⟨_, _, rfl, gathered, _⟩ | ⟨values, rfl, parts, _⟩
      · rw [conforms_list, gathered.fits_iff .dynamic distinct (elements .dynamic .dynamic)]
        exact fun item _ => ⟨not_drifts (by simp) (by simp), not_misfits_dynamic item⟩
      · rw [Value.conforms_tuple]
        intro value held
        obtain ⟨item, there, read⟩ := Paired.exists_left parts held
        exact (elements .dynamic .dynamic item there value read).2 (not_misfits_dynamic item)
  | object members ih =>
    simp only [Json.wellFormed_object] at distinct
    rcases read.object_shape with ⟨attributes, rfl⟩ | ⟨element, rfl⟩ | rfl
    · rw [Shape.wellFormed_object] at formed
      exact read.conforms_object distinct.1 formed.1 fun member held slot declared _ read =>
        ih member held read (distinct.2 member held) (formed.2 slot declared)
    · rw [Shape.wellFormed_map] at formed
      obtain ⟨_, entries, rfl, _, gathered⟩ := read.map distinct.2 formed
      have elements : ∀ document ∈ members.map Prod.snd, ∀ value,
          Reads document element value → (value.conforms = true ↔ ¬ Misfits document element) := by
        intro document held value read
        obtain ⟨member, source, rfl⟩ := List.mem_map.1 held
        exact ih member source read (distinct.2 member source) formed
      rw [conforms_map, not_misfits_collection (fun _ _ => elementOf_map) (by rintro _ _ ⟨⟩),
        ← gathered.fits_iff formed (List.forall_mem_map.2 distinct.2) elements, List.forall_mem_map]
    · obtain ⟨entries, parts, rfl⟩ := (reads_record _ _).1 read
      rw [Value.conforms_object]
      refine iff_of_true (fun entry held => ?_) (not_misfits_dynamic _)
      obtain ⟨member, source, _, shape, declared, read⟩ := Paired.exists_left parts held
      obtain rfl := Option.some.inj declared
      exact (ih member source read (distinct.2 member source) .dynamic).2 (not_misfits_dynamic _)

/-- The exact condition under which a conversion gives a value that conforms. -/
theorem ofJson_conforms_iff {document : Json} {shape : Shape} {path : Path} {value : Value}
    (converted : ofJson document shape path = .ok value) (distinct : document.WellFormed)
    (formed : shape.WellFormed) : value.conforms = true ↔ ¬ Misfits document shape :=
  (reads_of_ofJson converted).conforms_iff distinct formed

/-- A sequence of three integers inside a sequence, and a list of tuples of one number for it. -/
def spreadDocument : Json := .array [.array [.int 1, .int 2, .int 3]]

@[inherit_doc spreadDocument]
def spreadShape : Shape := .list (.tuple [.number])

/-- What the nested integers read as: a list of tuples of one number that holds one of three. -/
def spreadValue : Value :=
  .list (.tuple [.number])
    [.tuple [.number (.ofInt 1), .number (.ofInt 2), .number (.ofInt 3)]]

theorem spreadDocument_wellFormed : spreadDocument.WellFormed := by
  simp [spreadDocument, Json.int]

theorem spreadShape_wellFormed : spreadShape.WellFormed := by
  simp [spreadShape]

/-- The condition at a sequence that is spread inside a list. -/
theorem spread_conforms_iff :
    ofJson spreadDocument spreadShape .root = .ok spreadValue ∧
      (spreadValue.conforms = true ↔ ¬ Misfits spreadDocument spreadShape) :=
  have read : ofJson spreadDocument spreadShape .root = .ok spreadValue := rfl
  ⟨read, ofJson_conforms_iff read spreadDocument_wellFormed spreadShape_wellFormed⟩

/-- A conversion does not always give a value that conforms. -/
theorem not_always_conforms :
    ¬ ∀ (document : Json) (shape : Shape) (path : Path) (value : Value), document.WellFormed →
        shape.WellFormed → ofJson document shape path = .ok value → value.conforms = true := by
  intro always
  have conforms := always spreadDocument spreadShape .root spreadValue spreadDocument_wellFormed
    spreadShape_wellFormed rfl
  revert conforms
  decide

end TypedTree.Value
