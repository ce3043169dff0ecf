import Mathlib.Data.List.ReduceOption
import TypedTree.Convert.Outbound
import TypedTree.Proofs.Json.Pruning
import TypedTree.Proofs.Value.Members

/-!
# The document of a value

Only the errors of the outward conversion depend on the path: a value that leaves at one path leaves
in the same way at every path. `Leaves` says as which document, if it is not absent, and one
statement for each kind of value says so in terms of the members.
-/

namespace TypedTree.Value

attribute [local simp] toJson? itemsToJson elementsToJson entriesToJson

/-- A value leaves the typed model as a document, or is absent from documents, at any path. -/
def Leaves (value : Value) (result : Option Json) : Prop :=
  ∀ path, toJson? value path = .ok result

/-- The documents that are not absent, under their names. -/
def keptEntries (results : List (String × Option Json)) : List (String × Json) :=
  results.flatMap fun result => result.2.toList.map fun document => (result.1, document)

theorem reduceOption_cons {α : Type} (result : Option α) (rest : List (Option α)) :
    (result :: rest).reduceOption = result.toList ++ rest.reduceOption := by
  cases result <;> simp

/-- The first item leaves before the others do. -/
theorem leaves_cons (item : Value) (rest : List Value) (kept : List Json) :
    (∃ result, Leaves item result ∧ ∃ others,
        (∃ results, List.Forall₂ Leaves rest results ∧ results.reduceOption = others) ∧
        result.toList ++ others = kept) ↔
      ∃ results, List.Forall₂ Leaves (item :: rest) results ∧ results.reduceOption = kept := by
  simp only [List.forall₂_cons_left_iff]
  constructor
  · rintro ⟨result, leaves, _, ⟨results, parts, rfl⟩, rfl⟩
    exact ⟨_, ⟨result, results, leaves, parts, rfl⟩, reduceOption_cons _ _⟩
  · rintro ⟨_, ⟨result, results, leaves, parts, rfl⟩, rfl⟩
    exact ⟨result, leaves, _, ⟨results, parts, rfl⟩, (reduceOption_cons _ _).symm⟩

/-- Items leave one by one, and the absent ones are left out. -/
theorem itemsToJson_ok {items : List Value}
    (settled : ∀ item ∈ items, ∀ path result, toJson? item path = .ok result ↔ Leaves item result)
    (position : Nat) (path : Path) (kept : List Json) :
    itemsToJson items position path = .ok kept ↔
      ∃ results, List.Forall₂ Leaves items results ∧ results.reduceOption = kept := by
  induction items generalizing position kept with
  | nil => simp
  | cons item rest ih =>
    obtain ⟨here, others⟩ := List.forall_mem_cons.1 settled
    have split : itemsToJson (item :: rest) position path = .ok kept ↔
        ∃ result, toJson? item (path.push (.index position)) = .ok result ∧
          ∃ others, itemsToJson rest (position + 1) path = .ok others ∧
            result.toList ++ others = kept := by
      cases first : toJson? item (path.push (.index position)) <;>
        cases others : itemsToJson rest (position + 1) path <;>
        simp [first, others]
    simp only [split, here, ih others, leaves_cons]

/-- Set elements leave one by one, and the absent ones are left out. -/
theorem elementsToJson_ok {items : List Value}
    (settled : ∀ item ∈ items, ∀ path result, toJson? item path = .ok result ↔ Leaves item result)
    (path : Path) (kept : List Json) :
    elementsToJson items path = .ok kept ↔
      ∃ results, List.Forall₂ Leaves items results ∧ results.reduceOption = kept := by
  induction items generalizing kept with
  | nil => simp
  | cons item rest ih =>
    obtain ⟨here, others⟩ := List.forall_mem_cons.1 settled
    have split : elementsToJson (item :: rest) path = .ok kept ↔
        ∃ result, toJson? item path = .ok result ∧
          ∃ others, elementsToJson rest path = .ok others ∧ result.toList ++ others = kept := by
      cases first : toJson? item path <;> cases others : elementsToJson rest path <;>
        simp [first, others]
    simp only [split, here, ih others, leaves_cons]

/-- Entries leave one by one under their names, and the absent ones are left out. -/
theorem entriesToJson_ok {entries : List (String × Value)}
    (settled : ∀ entry ∈ entries, ∀ path result,
      toJson? entry.2 path = .ok result ↔ Leaves entry.2 result)
    (step : String → Step) (path : Path) (kept : List (String × Json)) :
    entriesToJson entries step path = .ok kept ↔
      ∃ results, Entries.Aligned Leaves entries results ∧ keptEntries results = kept := by
  induction entries generalizing kept with
  | nil => simp [keptEntries]
  | cons entry rest ih =>
    obtain ⟨here, others⟩ := List.forall_mem_cons.1 settled
    have split : entriesToJson (entry :: rest) step path = .ok kept ↔
        ∃ result, toJson? entry.2 (path.push (step entry.1)) = .ok result ∧
          ∃ others, entriesToJson rest step path = .ok others ∧
            result.toList.map (fun document => (entry.1, document)) ++ others = kept := by
      cases first : toJson? entry.2 (path.push (step entry.1)) <;>
        cases others : entriesToJson rest step path <;>
        simp [first, others]
    simp only [split, here, ih others, List.forall₂_cons_left_iff]
    constructor
    · rintro ⟨result, leaves, _, ⟨results, parts, rfl⟩, rfl⟩
      exact ⟨_, ⟨(entry.1, result), results, ⟨rfl, leaves⟩, parts, rfl⟩, rfl⟩
    · rintro ⟨_, ⟨⟨_, result⟩, results, ⟨rfl, leaves⟩, parts, rfl⟩, rfl⟩
      exact ⟨result, leaves, _, ⟨results, parts, rfl⟩, rfl⟩

/-- The document of a value does not depend on the path. -/
theorem toJson?_ok (value : Value) (path : Path) (result : Option Json) :
    toJson? value path = .ok result ↔ Leaves value result := by
  refine ⟨fun sent => ?_, fun leaves => leaves path⟩
  induction value generalizing path result with
  | null shape => simpa [Leaves] using sent
  | unknown shape => simp at sent
  | text known | bool known => simpa [Leaves] using sent
  | number known => cases sending : known.toJson? <;> simp_all [Leaves]
  | list element items ih | tuple items ih =>
    have settled : ∀ item ∈ items, ∀ path result,
        toJson? item path = .ok result ↔ Leaves item result :=
      fun item held path result => ⟨ih item held path result, fun leaves => leaves path⟩
    intro other
    cases parts : itemsToJson items 0 path with
    | error error => simp [parts] at sent
    | ok kept =>
      have moved := (itemsToJson_ok settled 0 other _).2 ((itemsToJson_ok settled _ _ _).1 parts)
      simpa [parts, moved] using sent
  | set element items ih =>
    have settled : ∀ item ∈ items, ∀ path result,
        toJson? item path = .ok result ↔ Leaves item result :=
      fun item held path result => ⟨ih item held path result, fun leaves => leaves path⟩
    intro other
    cases parts : elementsToJson items path with
    | error error => simp [parts] at sent
    | ok kept =>
      have moved := (elementsToJson_ok settled other _).2 ((elementsToJson_ok settled _ _).1 parts)
      simpa [parts, moved] using sent
  | map element entries ih =>
    have settled : ∀ entry ∈ entries, ∀ path result,
        toJson? entry.2 path = .ok result ↔ Leaves entry.2 result :=
      fun entry held path result => ⟨ih entry held path result, fun leaves => leaves path⟩
    intro other
    cases parts : entriesToJson entries .key path with
    | error error => simp [parts] at sent
    | ok kept =>
      have aligned := (entriesToJson_ok settled _ _ _).1 parts
      have moved := (entriesToJson_ok settled .key other _).2 aligned
      simpa [parts, moved] using sent
  | object entries ih =>
    have settled : ∀ entry ∈ entries, ∀ path result,
        toJson? entry.2 path = .ok result ↔ Leaves entry.2 result :=
      fun entry held path result => ⟨ih entry held path result, fun leaves => leaves path⟩
    intro other
    cases parts : entriesToJson entries .attr path with
    | error error => simp [parts] at sent
    | ok kept =>
      have aligned := (entriesToJson_ok settled _ _ _).1 parts
      have moved := (entriesToJson_ok settled .attr other _).2 aligned
      simpa [parts, moved] using sent

@[simp]
theorem leaves_null (shape : Shape) (result : Option Json) :
    Leaves (null shape) result ↔ result = none := by
  simp [Leaves, eq_comm]

@[simp]
theorem leaves_unknown (shape : Shape) (result : Option Json) :
    ¬ Leaves (unknown shape) result := by
  simp [Leaves]

@[simp]
theorem leaves_text (known : String) (result : Option Json) :
    Leaves (text known) result ↔ result = some (.text known) := by
  simp [Leaves, eq_comm]

@[simp]
theorem leaves_bool (known : Bool) (result : Option Json) :
    Leaves (bool known) result ↔ result = some (.bool known) := by
  simp [Leaves, eq_comm]

@[simp]
theorem leaves_number (known : Decimal) (result : Option Json) :
    Leaves (number known) result ↔
      ∃ sent, known.toJson? = some sent ∧ result = some (.number sent) := by
  cases sending : known.toJson? <;> simp [Leaves, sending, eq_comm]

/-- The document of a list. -/
theorem leaves_list (element : Shape) (items : List Value) (result : Option Json) :
    Leaves (list element items) result ↔
      ∃ results, List.Forall₂ Leaves items results ∧
        keepArray items.length results.reduceOption = result := by
  have staged : toJson? (list element items) .root = .ok result ↔
      ∃ kept, itemsToJson items 0 .root = .ok kept ∧ keepArray items.length kept = result := by
    cases sent : itemsToJson items 0 .root <;> simp [sent]
  rw [← toJson?_ok _ .root, staged]
  simp only [itemsToJson_ok fun item _ => toJson?_ok item, exists_exists_and_eq_and]

/-- The document of a tuple is that of a list of its items. -/
theorem leaves_tuple (items : List Value) (result : Option Json) :
    Leaves (tuple items) result ↔
      ∃ results, List.Forall₂ Leaves items results ∧
        keepArray items.length results.reduceOption = result :=
  leaves_list .dynamic items result

/-- The document of a set. -/
theorem leaves_set (element : Shape) (items : List Value) (result : Option Json) :
    Leaves (set element items) result ↔
      ∃ results, List.Forall₂ Leaves items results ∧
        keepArray items.length results.reduceOption = result := by
  have staged : toJson? (set element items) .root = .ok result ↔
      ∃ kept, elementsToJson items .root = .ok kept ∧ keepArray items.length kept = result := by
    cases sent : elementsToJson items .root <;> simp [sent]
  rw [← toJson?_ok _ .root, staged]
  simp only [elementsToJson_ok fun item _ => toJson?_ok item, exists_exists_and_eq_and]

/-- The document of a map. -/
theorem leaves_map (element : Shape) (entries : List (String × Value)) (result : Option Json) :
    Leaves (map element entries) result ↔
      ∃ results, Entries.Aligned Leaves entries results ∧
        keepObject entries.length (keptEntries results) = result := by
  have staged : toJson? (map element entries) .root = .ok result ↔
      ∃ kept, entriesToJson entries .key .root = .ok kept ∧
        keepObject entries.length kept = result := by
    cases sent : entriesToJson entries .key .root <;> simp [sent]
  rw [← toJson?_ok _ .root, staged]
  simp only [entriesToJson_ok fun entry _ => toJson?_ok entry.2, exists_exists_and_eq_and]

/-- The document of an object. -/
theorem leaves_object (entries : List (String × Value)) (result : Option Json) :
    Leaves (object entries) result ↔
      ∃ results, Entries.Aligned Leaves entries results ∧
        keepObject entries.length (keptEntries results) = result := by
  have staged : toJson? (object entries) .root = .ok result ↔
      ∃ kept, entriesToJson entries .attr .root = .ok kept ∧
        keepObject entries.length kept = result := by
    cases sent : entriesToJson entries .attr .root <;> simp [sent]
  rw [← toJson?_ok _ .root, staged]
  simp only [entriesToJson_ok fun entry _ => toJson?_ok entry.2, exists_exists_and_eq_and]

/-- The document of a sequence. -/
theorem leaves_items {value : Value} {items : List Value} (found : value.items? = some items)
    (result : Option Json) :
    Leaves value result ↔ ∃ results, List.Forall₂ Leaves items results ∧
      keepArray items.length results.reduceOption = result := by
  cases value with
  | list element own | tuple own | set element own =>
    obtain rfl := Option.some.inj found
    simp only [leaves_list, leaves_tuple, leaves_set]
  | _ => cases found

/-- The document of a table. -/
theorem leaves_entries {value : Value} {entries : List (String × Value)}
    (found : value.entries? = some entries) (result : Option Json) :
    Leaves value result ↔ ∃ results, Entries.Aligned Leaves entries results ∧
      keepObject entries.length (keptEntries results) = result := by
  cases value with
  | map element own | object own =>
    obtain rfl := Option.some.inj found
    simp only [leaves_map, leaves_object]
  | _ => cases found

/-- A sequence is present when it was empty before or has kept a member. -/
theorem keepArray_eq_some {total : Nat} {kept : List Json} {document : Json} :
    keepArray total kept = some document ↔
      (total = 0 ∨ kept ≠ []) ∧ document = .array kept := by
  simp [keepArray, @eq_comm _ document]

/-- A mapping is present when it was empty before or has kept a member. -/
theorem keepObject_eq_some {total : Nat} {kept : List (String × Json)} {document : Json} :
    keepObject total kept = some document ↔
      (total = 0 ∨ kept ≠ []) ∧ document = .object kept := by
  simp [keepObject, @eq_comm _ document]

/-- A sequence is absent when it had members and has lost them all. -/
theorem keepArray_eq_none {total : Nat} {kept : List Json} :
    keepArray total kept = none ↔ total ≠ 0 ∧ kept = [] := by
  simp [keepArray]

/-- A mapping is absent when it had members and has lost them all. -/
theorem keepObject_eq_none {total : Nat} {kept : List (String × Json)} :
    keepObject total kept = none ↔ total ≠ 0 ∧ kept = [] := by
  simp [keepObject]

/-- What is kept of a sequence is what remains of its members. -/
theorem keepArray_remaining {α : Type} (members : List α) (kept : List Json) :
    keepArray members.length kept = (remaining members kept).map .array := by
  cases members <;> cases kept <;> rfl

/-- What is kept of a mapping is what remains of its members. -/
theorem keepObject_remaining {α : Type} (members : List α) (kept : List (String × Json)) :
    keepObject members.length kept = (remaining members kept).map .object := by
  cases members <;> cases kept <;> rfl

/-- What was kept under a name is the result of that name. -/
theorem mem_of_mem_keptEntries {results : List (String × Option Json)} {kept : String × Json}
    (held : kept ∈ keptEntries results) : (kept.1, some kept.2) ∈ results := by
  obtain ⟨⟨name, result⟩, there, own⟩ := List.mem_flatMap.1 held
  obtain ⟨document, same, rfl⟩ := List.mem_map.1 own
  obtain rfl : result = some document := Option.mem_toList.1 same
  exact there

/-- What was kept of entries behind each other stands behind each other. -/
theorem keptEntries_append (results others : List (String × Option Json)) :
    keptEntries (results ++ others) = keptEntries results ++ keptEntries others :=
  List.flatMap_append

/-- Nothing is kept of entries that are all absent. -/
theorem keptEntries_absent {results : List (String × Option Json)}
    (absent : ∀ result ∈ results, result.2 = none) : keptEntries results = [] :=
  List.flatMap_eq_nil_iff.2 fun result held => by simp [absent result held]

/-- The names of the entries that were kept are among the names of all of them, in order. -/
theorem keys_keptEntries (results : List (String × Option Json)) :
    (Entries.keys (keptEntries results)).Sublist (Entries.keys results) := by
  induction results with
  | nil => exact .slnil
  | cons result rest ih =>
    obtain ⟨name, document⟩ := result
    cases document with
    | none => exact ih.cons name
    | some document => exact ih.cons_cons name

/-- Under a name stands what was kept of the entry of that name. -/
theorem get?_keptEntries {results : List (String × Option Json)}
    (distinct : Entries.Distinct results) {name : String} {result : Option Json}
    (found : Entries.get? results name = some result) :
    Entries.get? (keptEntries results) name = result := by
  induction results with
  | nil => simp [Entries.get?] at found
  | cons first rest ih =>
    obtain ⟨other, document⟩ := first
    obtain ⟨fresh, others⟩ := (Entries.distinct_cons _ _).1 distinct
    have split : keptEntries ((other, document) :: rest) =
        document.toList.map (fun document => (other, document)) ++ keptEntries rest := rfl
    by_cases here : other = name
    · subst here
      have later : Entries.get? (keptEntries rest) other = none :=
        (Entries.get?_eq_none _ _).2 fun present => fresh ((keys_keptEntries rest).subset present)
      obtain rfl : document = result := by simpa [Entries.get?] using found
      cases document <;> simp [split, Entries.get?, later]
    · have there : Entries.get? rest name = some result := by
        simpa [Entries.get?, here] using found
      cases document <;> simp [split, Entries.get?, here, ih others there]

/-- What was kept of the entries has the documents that were kept of their values. -/
theorem map_snd_keptEntries (results : List (String × Option Json)) :
    (keptEntries results).map Prod.snd = (results.map Prod.snd).reduceOption := by
  induction results with
  | nil => rfl
  | cons result rest ih =>
    obtain ⟨name, document⟩ := result
    rw [List.map_cons, reduceOption_cons, ← ih]
    cases document <;> rfl

/-- A value has one document at most. -/
theorem Leaves.unique {value : Value} {first second : Option Json} (left : Leaves value first)
    (right : Leaves value second) : first = second :=
  Except.ok.inj ((left .root).symm.trans (right .root))

/-- A value that is present in documents is not null. -/
theorem Leaves.present {value : Value} {document : Json} (leaves : Leaves value (some document)) :
    value.isNull = false := by
  cases value <;> simp_all [isNull]

/-- What is kept of items is a well-formed array when they leave as well-formed documents. -/
theorem keepArray_wellFormed {items : List Value} {results : List (Option Json)} {count : Nat}
    {document : Json}
    (each : ∀ item ∈ items, ∀ document, Leaves item (some document) → document.WellFormed)
    (parts : List.Forall₂ Leaves items results)
    (kept : keepArray count results.reduceOption = some document) : document.WellFormed := by
  obtain ⟨_, rfl⟩ := keepArray_eq_some.1 kept
  refine .array fun document held => ?_
  obtain ⟨item, there, leaves⟩ := Paired.exists_left parts (List.reduceOption_mem_iff.1 held)
  exact each item there document leaves

/-- What is kept of entries is a well-formed object when they leave as well-formed documents. -/
theorem keepObject_wellFormed {entries : List (String × Value)}
    {results : List (String × Option Json)} {count : Nat} {document : Json}
    (distinct : Entries.Distinct entries)
    (each : ∀ entry ∈ entries, ∀ document, Leaves entry.2 (some document) → document.WellFormed)
    (parts : Entries.Aligned Leaves entries results)
    (kept : keepObject count (keptEntries results) = some document) : document.WellFormed := by
  obtain ⟨_, rfl⟩ := keepObject_eq_some.1 kept
  have own : Entries.Distinct results := by simpa only [Entries.Distinct, ← parts.keys_eq]
  refine .object ((keys_keptEntries results).nodup own) fun member held => ?_
  have among := List.mem_map_of_mem (f := Prod.snd) held
  rw [map_snd_keptEntries, List.reduceOption_mem_iff] at among
  obtain ⟨result, there, same⟩ := List.mem_map.1 among
  obtain ⟨entry, source, _, leaves⟩ := Paired.exists_left parts there
  exact each entry source member.2 (same ▸ leaves)

/-- The document of a well-formed value is well-formed. -/
theorem Leaves.wellFormed {value : Value} {document : Json} (leaves : Leaves value (some document))
    (formed : value.WellFormed) : document.WellFormed := by
  induction value generalizing document with
  | null shape => simp at leaves
  | unknown shape => exact absurd leaves (leaves_unknown _ _)
  | text known => simp_all
  | bool known => simp_all
  | number known =>
    obtain ⟨sent, _, same⟩ := (leaves_number _ _).1 leaves
    simp_all
  | list element values ih =>
    rw [wellFormed_list] at formed
    obtain ⟨results, parts, kept⟩ := (leaves_list _ _ _).1 leaves
    refine keepArray_wellFormed (fun item held _ leaves => ?_) parts kept
    exact ih item held leaves (formed.2 item held)
  | tuple values ih =>
    rw [wellFormed_tuple] at formed
    obtain ⟨results, parts, kept⟩ := (leaves_tuple _ _).1 leaves
    refine keepArray_wellFormed (fun item held _ leaves => ?_) parts kept
    exact ih item held leaves (formed item held)
  | set element values ih =>
    rw [wellFormed_set] at formed
    obtain ⟨results, parts, kept⟩ := (leaves_set _ _ _).1 leaves
    refine keepArray_wellFormed (fun item held _ leaves => ?_) parts kept
    exact ih item held leaves (formed.2 item held)
  | map element values ih =>
    rw [wellFormed_map] at formed
    obtain ⟨results, parts, kept⟩ := (leaves_map _ _ _).1 leaves
    refine keepObject_wellFormed formed.2.1 (fun entry held _ leaves => ?_) parts kept
    exact ih entry held leaves (formed.2.2 entry held)
  | object values ih =>
    rw [wellFormed_object] at formed
    obtain ⟨results, parts, kept⟩ := (leaves_object _ _).1 leaves
    refine keepObject_wellFormed formed.1 (fun entry held _ leaves => ?_) parts kept
    exact ih entry held leaves (formed.2 entry held)

/-- A value that is absent from documents is null or had members to lose. -/
theorem Leaves.isNull_or_members {value : Value} (absent : Leaves value none) :
    value.isNull = true ∨ ∃ member, member ∈ value.members := by
  cases value with
  | null => exact .inl rfl
  | unknown shape => exact absurd absent (leaves_unknown _ _)
  | text | bool | number => simp at absent
  | list element items =>
    obtain ⟨_, _, kept⟩ := (leaves_list _ _ _).1 absent
    have filled : 0 < items.length := Nat.pos_of_ne_zero (keepArray_eq_none.1 kept).1
    exact .inr (List.exists_mem_of_length_pos filled)
  | tuple items =>
    obtain ⟨_, _, kept⟩ := (leaves_tuple _ _).1 absent
    have filled : 0 < items.length := Nat.pos_of_ne_zero (keepArray_eq_none.1 kept).1
    exact .inr (List.exists_mem_of_length_pos filled)
  | set element items =>
    obtain ⟨_, _, kept⟩ := (leaves_set _ _ _).1 absent
    have filled : 0 < items.length := Nat.pos_of_ne_zero (keepArray_eq_none.1 kept).1
    exact .inr (List.exists_mem_of_length_pos filled)
  | map element entries =>
    obtain ⟨_, _, kept⟩ := (leaves_map _ _ _).1 absent
    have present := Nat.pos_of_ne_zero (keepObject_eq_none.1 kept).1
    exact .inr (List.length_pos_iff_exists_mem.1 (by simpa [members] using present))
  | object entries =>
    obtain ⟨_, _, kept⟩ := (leaves_object _ _).1 absent
    have present := Nat.pos_of_ne_zero (keepObject_eq_none.1 kept).1
    exact .inr (List.length_pos_iff_exists_mem.1 (by simpa [members] using present))

end TypedTree.Value
