import TypedTree.Proofs.Convert.Attributes
import TypedTree.Proofs.Convert.Inference

/-!
# What is read is well-formed

A list, a set and a map gather their members in the same way: each is read under the declared
element shape, the element shape is unified, and every null takes it. A value that is read is
well-formed, is never unknown, and has plain `dynamic` for its shape only where it is null.
-/

namespace TypedTree.Value

@[simp]
theorem isNull_retypeNull (shape : Shape) (value : Value) :
    (value.retypeNull shape).isNull = value.isNull := by
  cases value <;> rfl

/-- A value that is not null keeps its own shape. -/
theorem retypeNull_of_present {value : Value} (shape : Shape) (present : value.isNull = false) :
    value.retypeNull shape = value := by
  cases value <;> first | rfl | contradiction

/-- A null takes the shape of its place. -/
theorem retypeNull_of_null {value : Value} (shape : Shape) (absent : value.isNull = true) :
    value.retypeNull shape = null shape := by
  cases value <;> first | rfl | contradiction

/-- A null that takes a well-formed shape stays well-formed, as does every other value. -/
theorem WellFormed.retypeNull {shape : Shape} {value : Value} (formed : value.WellFormed)
    (declared : shape.WellFormed) : (value.retypeNull shape).WellFormed := by
  cases absent : value.isNull with
  | true => simpa [retypeNull_of_null shape absent] using declared
  | false => simpa [retypeNull_of_present shape absent] using formed

/-- Unifying well-formed values gives a well-formed shape and well-formed members. -/
theorem unify_wellFormed {declared element : Shape} {values : List Value}
    {found : List (Step × Value)} (steps : found.map Prod.snd = values)
    (formed : declared.WellFormed) (known : ∀ value ∈ values, value.WellFormed)
    (unified : unify declared found = .ok element) :
    element.WellFormed ∧ ∀ member ∈ values.map (Value.retypeNull element), member.WellFormed := by
  subst steps
  have shape := (unify_ok known unified).wellFormed formed known
  refine ⟨shape, fun member held => ?_⟩
  obtain ⟨value, there, rfl⟩ := List.mem_map.1 held
  exact (known value there).retypeNull shape

/-- Untyped items become a list of an inferred shape or stand as a tuple. -/
theorem inferSequence_cases {items : List Value} (formed : ∀ item ∈ items, item.WellFormed) :
    (∃ element, sharedShape? items = some element ∧ Infers items element ∧
        (∃ item ∈ items, item.isNull = false) ∧
        inferSequence items = .list element (items.map (retypeNull element))) ∨
      sharedShape? items = none ∧ inferSequence items = tuple items := by
  cases shared : sharedShape? items with
  | none => exact .inr ⟨rfl, by simp [inferSequence, shared]⟩
  | some element =>
    obtain ⟨inferred, present⟩ := infers_of_sharedShape? formed shared
    exact .inl ⟨element, rfl, inferred, present, by simp [inferSequence, shared]⟩

/-- Inference gives well-formed values for well-formed items. -/
theorem inferSequence_wellFormed {items : List Value} (formed : ∀ item ∈ items, item.WellFormed) :
    (inferSequence items).WellFormed := by
  rcases inferSequence_cases formed with ⟨element, _, inferred, _, same⟩ | ⟨_, same⟩
  · have shape := inferred.wellFormed formed
    rw [same, wellFormed_list]
    refine ⟨shape, fun member held => ?_⟩
    obtain ⟨item, there, rfl⟩ := List.mem_map.1 held
    exact (formed item there).retypeNull shape
  · rw [same, wellFormed_tuple]
    exact formed

/-- Every member of a tuple that is read comes from an item, by way of a slot. -/
theorem Reads.tuple {items : List Json} {slots : List Shape} {value : Value}
    (read : Reads (.array items) (.tuple slots) value) :
    ∃ values, value = tuple values ∧
      ∀ member ∈ values, ∃ item ∈ items, ∃ slot ∈ slots, Reads item slot member := by
  obtain ⟨values, rfl, ⟨_, parts⟩ | ⟨slot, rfl, _, parts⟩⟩ := (reads_tuple _ _ _).1 read
  · refine ⟨values, rfl, fun member held => ?_⟩
    obtain ⟨pair, there, read⟩ := Paired.exists_left parts held
    exact ⟨pair.1, (List.of_mem_zip there).1, pair.2, (List.of_mem_zip there).2, read⟩
  · refine ⟨values, rfl, fun member held => ?_⟩
    obtain ⟨item, there, read⟩ := Paired.exists_left parts held
    exact ⟨item, there, slot, by simp, read⟩

/-- What is read from a well-formed document under a well-formed shape is well-formed. -/
theorem Reads.wellFormed {document : Json} {shape : Shape} {value : Value}
    (read : Reads document shape value) (distinct : document.WellFormed)
    (formed : shape.WellFormed) : value.WellFormed := by
  induction document generalizing shape value with
  | null => simpa [(reads_null _ _).1 read] using formed
  | bool known => simp [((reads_bool _ _ _).1 read).2]
  | number known => simp [((reads_number _ _ _).1 read).2]
  | text known =>
    rcases (reads_text _ _ _).1 read with ⟨_, rfl⟩ | ⟨_, n, _, rfl⟩
    · exact .text known
    · exact .number n
  | array items ih =>
    simp only [Json.wellFormed_array] at distinct
    have known {declared : Shape} {values : List Value} (formed : declared.WellFormed)
        (parts : List.Forall₂ (Reads · declared ·) items values) :
        ∀ value ∈ values, value.WellFormed := by
      intro value held
      obtain ⟨item, there, read⟩ := Paired.exists_left parts held
      exact ih item there read (distinct item there) formed
    rcases read.array_shape with ⟨element, rfl⟩ | ⟨element, rfl⟩ | ⟨slots, rfl⟩ | rfl
    · rw [Shape.wellFormed_list] at formed
      obtain ⟨values, element, parts, unified, rfl⟩ := (reads_list _ _ _).1 read
      exact (wellFormed_list _ _).2
        (unify_wellFormed (map_snd_indexed _) formed (known formed parts) unified)
    · rw [Shape.wellFormed_set] at formed
      obtain ⟨values, element, parts, unified, rfl⟩ := (reads_set _ _ _).1 read
      exact (wellFormed_set _ _).2
        (unify_wellFormed (map_snd_indexed _) formed (known formed parts) unified)
    · obtain ⟨values, rfl, parts⟩ := read.tuple
      simp only [Shape.wellFormed_tuple] at formed
      refine (wellFormed_tuple _).2 fun member held => ?_
      obtain ⟨item, there, slot, declared, read⟩ := parts member held
      exact ih item there read (distinct item there) (formed slot declared)
    · obtain ⟨values, parts, rfl⟩ := (reads_sequence _ _).1 read
      exact inferSequence_wellFormed (known .dynamic parts)
  | object members ih =>
    simp only [Json.wellFormed_object] at distinct
    rcases read.object_shape with ⟨attributes, rfl⟩ | ⟨element, rfl⟩ | rfl
    · obtain ⟨entries, parts, rfl⟩ := (reads_object _ _ _).1 read
      simp only [Shape.wellFormed_object] at formed
      have names : Entries.Distinct entries := by
        simpa only [Entries.Distinct, ReadsMember.keys_eq parts] using distinct.1
      refine (wellFormed_object _).2
        ⟨distinct_missingAttributes formed.1 names, fun entry held => ?_⟩
      rcases List.mem_append.1 held with there | missing
      · obtain ⟨member, source, _, shape, declared, read⟩ := Paired.exists_left parts there
        exact ih member source read (distinct.2 member source)
          (formed.2 _ (Entries.mem_of_get? declared))
      · obtain ⟨declared, there, _, rfl⟩ := (mem_missingAttributes _ _ _).1 missing
        exact .null (formed.2 declared there)
    · rw [Shape.wellFormed_map] at formed
      obtain ⟨entries, element, parts, unified, rfl⟩ := (reads_map _ _ _).1 read
      have known : ∀ value ∈ entries.map Prod.snd, value.WellFormed := by
        refine List.forall_mem_map.2 fun entry held => ?_
        obtain ⟨member, source, _, shape, slot, read⟩ := Paired.exists_left parts held
        obtain rfl := Option.some.inj slot
        exact ih member source read (distinct.2 member source) formed
      obtain ⟨shape, members⟩ := unify_wellFormed (map_snd_keyed _) formed known unified
      refine (wellFormed_map _ _).2 ⟨shape, ?_, List.forall_mem_map.2 fun entry held => ?_⟩
      · simpa only [Entries.Distinct, Entries.keys_map, ← ReadsMember.keys_eq parts]
          using distinct.1
      · exact members _ (List.mem_map_of_mem (List.mem_map_of_mem held))
    · obtain ⟨entries, parts, rfl⟩ := (reads_record _ _).1 read
      refine (wellFormed_object _).2 ⟨?_, fun entry held => ?_⟩
      · simpa only [Entries.Distinct, ReadsMember.keys_eq parts] using distinct.1
      · obtain ⟨member, source, _, shape, declared, read⟩ := Paired.exists_left parts held
        exact ih member source read (distinct.2 member source)
          (Option.some.inj declared ▸ .dynamic)

/-- Documents are gathered when each is read and the nulls among the values are given one shape. -/
def Gathers (declared : Shape) (documents : List Json) (element : Shape)
    (members : List Value) : Prop :=
  ∃ values, List.Forall₂ (Reads · declared ·) documents values ∧
    Unified declared values element ∧ members = values.map (Value.retypeNull element)

/-- Values that were read from well-formed documents under a well-formed shape are well-formed. -/
theorem forall_wellFormed {declared : Shape} {documents : List Json} {values : List Value}
    (distinct : ∀ document ∈ documents, document.WellFormed) (formed : declared.WellFormed)
    (parts : List.Forall₂ (Reads · declared ·) documents values) :
    ∀ value ∈ values, value.WellFormed := by
  intro value held
  obtain ⟨document, there, read⟩ := Paired.exists_left parts held
  exact read.wellFormed (distinct document there) formed

/-- A list gathers the items of its document. -/
theorem Reads.list {items : List Json} {declared : Shape} {value : Value}
    (read : Reads (.array items) (.list declared) value)
    (distinct : ∀ item ∈ items, item.WellFormed) (formed : declared.WellFormed) :
    ∃ element members, value = list element members ∧ Gathers declared items element members := by
  obtain ⟨values, element, parts, unified, rfl⟩ := (reads_list _ _ _).1 read
  have rule := unify_ok (by simpa using forall_wellFormed distinct formed parts) unified
  exact ⟨element, _, rfl, values, parts, by simpa using rule, rfl⟩

/-- A set gathers the items of its document. -/
theorem Reads.set {items : List Json} {declared : Shape} {value : Value}
    (read : Reads (.array items) (.set declared) value)
    (distinct : ∀ item ∈ items, item.WellFormed) (formed : declared.WellFormed) :
    ∃ element members, value = set element members ∧ Gathers declared items element members := by
  obtain ⟨values, element, parts, unified, rfl⟩ := (reads_set _ _ _).1 read
  have rule := unify_ok (by simpa using forall_wellFormed distinct formed parts) unified
  exact ⟨element, _, rfl, values, parts, by simpa using rule, rfl⟩

/-- A map gathers the members of its document under their names. -/
theorem Reads.map {members : List (String × Json)} {declared : Shape} {value : Value}
    (read : Reads (.object members) (.map declared) value)
    (distinct : ∀ member ∈ members, member.2.WellFormed) (formed : declared.WellFormed) :
    ∃ element entries, value = map element entries ∧
      Entries.keys members = Entries.keys entries ∧
      Gathers declared (members.map Prod.snd) element (entries.map Prod.snd) := by
  obtain ⟨entries, element, parts, unified, rfl⟩ := (reads_map _ _ _).1 read
  have values := ReadsMember.values parts
  have known := forall_wellFormed (List.forall_mem_map.2 distinct) formed values
  have rule := unify_ok (by rwa [map_snd_keyed]) unified
  exact ⟨element, _, rfl, by simpa using ReadsMember.keys_eq parts, _, values,
    by rwa [map_snd_keyed] at rule, by simp⟩

/-- Members that are read under a map shape are the entries of a map, under their names. -/
theorem reads_map_zip {members : List (String × Json)} {declared element : Shape}
    {values : List Value} (parts : List.Forall₂ (Reads · declared ·) (members.map Prod.snd) values)
    (unified : unify declared (keyed ((Entries.keys members).zip values)) = .ok element) :
    Reads (.object members) (.map declared)
      (.map element ((Entries.keys members).zip (values.map (Value.retypeNull element)))) := by
  have aligned : Entries.Aligned (Reads · declared ·) members ((Entries.keys members).zip values) :=
    .zip parts
  refine (reads_map _ _ _).2 ⟨_, element, ?_, unified, ?_⟩
  · exact Paired.imp aligned fun _ _ _ _ read => ⟨read.1, declared, rfl, read.2⟩
  · rw [List.zip_map_right]
    rfl

/-- An array is gathered into a list where nothing is declared, or its items stand as a tuple. -/
theorem Reads.sequence {items : List Json} {value : Value}
    (read : Reads (.array items) .dynamic value) (distinct : ∀ item ∈ items, item.WellFormed) :
    (∃ element members, value = .list element members ∧ Gathers .dynamic items element members ∧
        ∃ member ∈ members, member.isNull = false) ∨
      ∃ values, value = .tuple values ∧ List.Forall₂ (Reads · .dynamic ·) items values ∧
        sharedShape? values = none := by
  obtain ⟨values, parts, rfl⟩ := (reads_sequence _ _).1 read
  rcases inferSequence_cases (forall_wellFormed distinct .dynamic parts) with
    ⟨element, _, inferred, ⟨item, held, present⟩, same⟩ | ⟨none, same⟩
  · exact .inl ⟨element, _, same, ⟨values, parts, .inr ⟨rfl, inferred⟩, rfl⟩,
      item.retypeNull element, List.mem_map_of_mem held, by simpa using present⟩
  · exact .inr ⟨values, same, parts, none⟩

/-- What is read from anything but null is known, and its shape is not plain `dynamic`. -/
theorem Reads.known {document : Json} {shape : Shape} {value : Value}
    (read : Reads document shape value) (present : document ≠ .null) :
    value.isKnown = true ∧ value.shape ≠ .dynamic := by
  cases document with
  | null => contradiction
  | bool known => simp [((reads_bool _ _ _).1 read).2, isKnown, isNull, isUnknown, Value.shape]
  | number known => simp [((reads_number _ _ _).1 read).2, isKnown, isNull, isUnknown, Value.shape]
  | text known =>
    rcases (reads_text _ _ _).1 read with ⟨_, rfl⟩ | ⟨_, n, _, rfl⟩ <;>
      simp [isKnown, isNull, isUnknown, Value.shape]
  | array items =>
    rcases read.array_shape with ⟨element, rfl⟩ | ⟨element, rfl⟩ | ⟨slots, rfl⟩ | rfl
    · obtain ⟨values, element, _, _, rfl⟩ := (reads_list _ _ _).1 read
      simp [isKnown, isNull, isUnknown]
    · obtain ⟨values, element, _, _, rfl⟩ := (reads_set _ _ _).1 read
      simp [isKnown, isNull, isUnknown]
    · obtain ⟨values, rfl, _⟩ := read.tuple
      simp [isKnown, isNull, isUnknown]
    · obtain ⟨values, _, rfl⟩ := (reads_sequence _ _).1 read
      cases shared : sharedShape? values <;>
        simp [inferSequence, shared, isKnown, isNull, isUnknown]
  | object members =>
    rcases read.object_shape with ⟨attributes, rfl⟩ | ⟨element, rfl⟩ | rfl
    · obtain ⟨entries, _, rfl⟩ := (reads_object _ _ _).1 read
      simp [isKnown, isNull, isUnknown]
    · obtain ⟨entries, element, _, _, rfl⟩ := (reads_map _ _ _).1 read
      simp [isKnown, isNull, isUnknown]
    · obtain ⟨entries, _, rfl⟩ := (reads_record _ _).1 read
      simp [isKnown, isNull, isUnknown]

/-- A null is read from null alone. -/
theorem Reads.isNull_iff {document : Json} {shape : Shape} {value : Value}
    (read : Reads document shape value) : value.isNull = true ↔ document = .null := by
  constructor
  · intro absent
    by_contra present
    have known := (read.known present).1
    simp [isKnown, absent] at known
  · rintro rfl
    simp [(reads_null _ _).1 read, isNull]

end TypedTree.Value
