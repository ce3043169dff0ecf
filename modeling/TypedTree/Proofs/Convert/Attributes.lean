import TypedTree.Proofs.Convert.Reading

/-!
# Reading objects under declared attributes

An object that is read has exactly the declared attributes. An attribute whose member is missing
reads as a null member would, so one statement covers both: every attribute holds what the member of
its name reads as, a missing member standing for null.
-/

namespace TypedTree.Value

/-- A missing attribute is a declared one that has no entry, as a null of its shape. -/
theorem mem_missingAttributes (attributes : List (String × Shape))
    (entries : List (String × Value)) (entry : String × Value) :
    entry ∈ missingAttributes attributes entries ↔
      ∃ declared ∈ attributes, declared.1 ∉ Entries.keys entries ∧
        entry = (declared.1, null declared.2) := by
  simp only [missingAttributes, List.mem_map, List.mem_filter, Option.isNone_iff_eq_none,
    Entries.get?_eq_none, and_assoc, @eq_comm _ entry]

/-- The missing attributes stand in the order in which they are declared. -/
theorem keys_missingAttributes (attributes : List (String × Shape))
    (entries : List (String × Value)) :
    Entries.keys (missingAttributes attributes entries) =
      (Entries.keys attributes).filter fun name => (Entries.get? entries name).isNone := by
  simp [missingAttributes, Entries.keys, List.filter_map, Function.comp_def]

/-- Entries and the missing attributes behind them have distinct names. -/
theorem distinct_missingAttributes {attributes : List (String × Shape)}
    {entries : List (String × Value)} (declared : Entries.Distinct attributes)
    (distinct : Entries.Distinct entries) :
    Entries.Distinct (entries ++ missingAttributes attributes entries) := by
  unfold Entries.Distinct
  rw [Entries.keys_append, keys_missingAttributes]
  refine List.nodup_append.2 ⟨distinct, declared.filter _, ?_⟩
  rintro name present _ missing rfl
  simp [Entries.get?_eq_none, present] at missing

/-- Declared entries and the missing attributes together have the declared names. -/
theorem keys_perm_missingAttributes {attributes : List (String × Shape)}
    {entries : List (String × Value)} (declared : Entries.Distinct attributes)
    (distinct : Entries.Distinct entries)
    (inside : ∀ name ∈ Entries.keys entries, name ∈ Entries.keys attributes) :
    (Entries.keys (entries ++ missingAttributes attributes entries)).Perm
      (Entries.keys attributes) := by
  refine (List.perm_ext_iff_of_nodup (distinct_missingAttributes declared distinct) declared).2
    fun name => ?_
  rw [Entries.keys_append, keys_missingAttributes]
  by_cases present : name ∈ Entries.keys entries
  · simp [present, inside name present]
  · simp [present, Entries.get?_eq_none]

/-- Entries that are read one by one have the names of their members. -/
theorem ReadsMember.keys_eq {slot : String → Option Shape} {members : List (String × Json)}
    {entries : List (String × Value)} (parts : List.Forall₂ (ReadsMember slot) members entries) :
    Entries.keys members = Entries.keys entries := by
  induction parts with
  | nil => rfl
  | cons first _ ih => simp [first.1, ih]

/-- In one slot for all names the values are what the documents read as, one by one. -/
theorem ReadsMember.values {shape : Shape} {members : List (String × Json)}
    {entries : List (String × Value)}
    (parts : List.Forall₂ (ReadsMember fun _ => some shape) members entries) :
    List.Forall₂ (Reads · shape ·) (members.map Prod.snd) (entries.map Prod.snd) := by
  rw [List.forall₂_map_left_iff, List.forall₂_map_right_iff]
  exact Paired.imp parts fun _ _ _ _ member => by simpa using member.2

/-- The entry of a name is what the member of that name reads as in its slot. -/
theorem ReadsMember.get? {slot : String → Option Shape} {members : List (String × Json)}
    {entries : List (String × Value)} (parts : List.Forall₂ (ReadsMember slot) members entries)
    {name : String} {document : Json} (found : Entries.get? members name = some document) :
    ∃ shape value, slot name = some shape ∧ Entries.get? entries name = some value ∧
      Reads document shape value := by
  induction parts with
  | nil => simp [Entries.get?] at found
  | @cons member entry _ _ first _ ih =>
    obtain ⟨same, shape, declared, read⟩ := first
    by_cases here : member.1 = name
    · simp only [Entries.get?, here, ↓reduceIte, Option.some.injEq] at found
      subst found here
      exact ⟨shape, entry.2, declared, by simp [Entries.get?, same], read⟩
    · simp only [Entries.get?, here, ↓reduceIte] at found
      obtain ⟨shape, value, slot, there, read⟩ := ih found
      exact ⟨shape, value, slot, by simp [Entries.get?, ← same, here, there], read⟩

/-- Every member of an object has a slot. -/
theorem ReadsMember.slot {slot : String → Option Shape} {members : List (String × Json)}
    {entries : List (String × Value)} (parts : List.Forall₂ (ReadsMember slot) members entries)
    {name : String} (present : name ∈ Entries.keys members) :
    ∃ shape, slot name = some shape := by
  obtain ⟨document, found⟩ := Entries.exists_get? present
  obtain ⟨shape, _, declared, _⟩ := ReadsMember.get? parts found
  exact ⟨shape, declared⟩

/-- What an object reads as has the declared names, each with what the member there reads as. -/
theorem Reads.object {members : List (String × Json)} {attributes : List (String × Shape)}
    {value : Value} (read : Reads (.object members) (.object attributes) value)
    (distinct : Entries.Distinct members) (declared : Entries.Distinct attributes) :
    ∃ entries, value = object entries ∧
      (Entries.keys entries).Perm (Entries.keys attributes) ∧
      (∀ name ∈ Entries.keys members, name ∈ Entries.keys attributes) ∧
      ∀ name shape, Entries.get? attributes name = some shape →
        ∃ value, Entries.get? entries name = some value ∧
          Reads ((Entries.get? members name).getD .null) shape value := by
  obtain ⟨entries, parts, rfl⟩ := (reads_object _ _ _).1 read
  have names := ReadsMember.keys_eq parts
  have inside (name : String) (present : name ∈ Entries.keys members) :
      name ∈ Entries.keys attributes := by
    obtain ⟨shape, found⟩ := ReadsMember.slot parts present
    exact List.mem_map_of_mem (Entries.mem_of_get? found)
  have apart : Entries.Distinct entries := by simpa only [Entries.Distinct, names] using distinct
  refine ⟨_, rfl, keys_perm_missingAttributes declared apart (names ▸ inside), inside, ?_⟩
  intro name shape slot
  cases found : Entries.get? members name with
  | some document =>
    obtain ⟨other, value, same, there, read⟩ := ReadsMember.get? parts found
    obtain rfl := Option.some.inj (slot.symm.trans same)
    exact ⟨value, by simp [Entries.get?_append, there], read⟩
  | none =>
    have absent : name ∉ Entries.keys entries := by
      rw [← names]
      exact (Entries.get?_eq_none _ _).1 found
    have missing : (name, null shape) ∈ missingAttributes attributes entries :=
      (mem_missingAttributes _ _ _).2 ⟨(name, shape), Entries.mem_of_get? slot, absent, rfl⟩
    have there := Entries.get?_of_mem (distinct_missingAttributes declared apart)
      (List.mem_append_right entries missing)
    exact ⟨null shape, there, by simp⟩

/--
An object whose members are all declared can be read when every attribute can, and whatever holds of
the values for the attributes holds of the entries of the object.
-/
theorem exists_reads_object {members : List (String × Json)} {attributes : List (String × Shape)}
    {holds : String → Value → Prop} (distinct : Entries.Distinct members)
    (declared : Entries.Distinct attributes)
    (inside : ∀ name ∈ Entries.keys members, name ∈ Entries.keys attributes)
    (parts : ∀ name shape, Entries.get? attributes name = some shape →
      ∃ value, Reads ((Entries.get? members name).getD .null) shape value ∧ holds name value) :
    ∃ entries, Reads (.object members) (.object attributes) (.object entries) ∧
      (Entries.keys entries).Perm (Entries.keys attributes) ∧
      ∀ name value, Entries.get? entries name = some value → holds name value := by
  have each : ∀ member ∈ members, ∃ entry, ReadsMember (Entries.get? attributes) member entry ∧
      holds entry.1 entry.2 := by
    intro member held
    obtain ⟨shape, slot⟩ := Entries.exists_get? (inside _ (List.mem_map_of_mem held))
    obtain ⟨value, read, good⟩ := parts member.1 shape slot
    rw [Entries.get?_of_mem distinct held] at read
    exact ⟨(member.1, value), ⟨rfl, shape, slot, read⟩, good⟩
  obtain ⟨entries, both⟩ := Paired.exists_of_forall each
  have read := Paired.imp both fun _ _ _ _ found => found.1
  have names := ReadsMember.keys_eq read
  have apart : Entries.Distinct entries := by simpa only [Entries.Distinct, names] using distinct
  refine ⟨_, (reads_object _ _ _).2 ⟨entries, read, rfl⟩,
    keys_perm_missingAttributes declared apart (names ▸ inside), fun name value found => ?_⟩
  rcases List.mem_append.1 (Entries.mem_of_get? found) with there | missing
  · obtain ⟨_, _, _, good⟩ := Paired.exists_left both there
    exact good
  · obtain ⟨⟨other, shape⟩, slot, absent, same⟩ := (mem_missingAttributes _ _ _).1 missing
    obtain ⟨rfl, rfl⟩ := Prod.mk.inj same
    rw [← names, ← Entries.get?_eq_none] at absent
    obtain ⟨value, read, good⟩ := parts name shape (Entries.get?_of_mem declared slot)
    rw [absent, Option.getD_none, reads_null] at read
    exact read ▸ good

end TypedTree.Value
