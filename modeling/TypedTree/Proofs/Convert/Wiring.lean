import TypedTree.Convert.Wire
import TypedTree.Proofs.Json.Distinct
import TypedTree.Proofs.Value.Equality

/-!
# The wire form of a value

As in the conversion to plain documents, the path matters for errors alone. `Wires` says which wire
form a value has, and one statement for each kind of value says so in terms of the members, none of
which is left out.
-/

namespace TypedTree.Value

attribute [local simp] wireValue wireItems wireElements wireEntries

/-- A value has a wire form, at any path. -/
def Wires (value : Value) (document : Json) : Prop :=
  ∀ path, wireValue value path = .ok document

/-- The wire forms of items are taken one by one. -/
theorem wireItems_ok {items : List Value}
    (settled : ∀ item ∈ items, ∀ path sent, wireValue item path = .ok sent ↔ Wires item sent)
    (position : Nat) (path : Path) (documents : List Json) :
    wireItems items position path = .ok documents ↔ List.Forall₂ Wires items documents := by
  induction items generalizing position documents with
  | nil => simp [eq_comm]
  | cons item rest ih =>
    obtain ⟨here, others⟩ := List.forall_mem_cons.1 settled
    have split : wireItems (item :: rest) position path = .ok documents ↔
        ∃ first others, wireValue item (path.push (.index position)) = .ok first ∧
          wireItems rest (position + 1) path = .ok others ∧ documents = first :: others := by
      cases first : wireValue item (path.push (.index position)) <;>
        cases others : wireItems rest (position + 1) path <;>
        simp [first, others, eq_comm]
    simp only [split, here, ih others, List.forall₂_cons_left_iff]

/-- The wire forms of set elements are taken one by one. -/
theorem wireElements_ok {items : List Value}
    (settled : ∀ item ∈ items, ∀ path sent, wireValue item path = .ok sent ↔ Wires item sent)
    (path : Path) (documents : List Json) :
    wireElements items path = .ok documents ↔ List.Forall₂ Wires items documents := by
  induction items generalizing documents with
  | nil => simp [eq_comm]
  | cons item rest ih =>
    obtain ⟨here, others⟩ := List.forall_mem_cons.1 settled
    have split : wireElements (item :: rest) path = .ok documents ↔
        ∃ first others, wireValue item path = .ok first ∧
          wireElements rest path = .ok others ∧ documents = first :: others := by
      cases first : wireValue item path <;> cases others : wireElements rest path <;>
        simp [first, others, eq_comm]
    simp only [split, here, ih others, List.forall₂_cons_left_iff]

/-- The wire forms of entries stand under the names of the entries. -/
theorem wireEntries_ok {entries : List (String × Value)}
    (settled : ∀ entry ∈ entries, ∀ path sent,
      wireValue entry.2 path = .ok sent ↔ Wires entry.2 sent)
    (step : String → Step) (path : Path) (members : List (String × Json)) :
    wireEntries entries step path = .ok members ↔ Entries.Aligned Wires entries members := by
  induction entries generalizing members with
  | nil => simp [eq_comm]
  | cons entry rest ih =>
    obtain ⟨here, others⟩ := List.forall_mem_cons.1 settled
    have split : wireEntries (entry :: rest) step path = .ok members ↔
        ∃ first others, wireValue entry.2 (path.push (step entry.1)) = .ok first ∧
          wireEntries rest step path = .ok others ∧ members = (entry.1, first) :: others := by
      cases first : wireValue entry.2 (path.push (step entry.1)) <;>
        cases others : wireEntries rest step path <;>
        simp [first, others, eq_comm]
    simp only [split, here, ih others, List.forall₂_cons_left_iff]
    constructor
    · rintro ⟨first, others, sent, parts, rfl⟩
      exact ⟨_, others, ⟨rfl, sent⟩, parts, rfl⟩
    · rintro ⟨⟨_, first⟩, others, ⟨rfl, sent⟩, parts, rfl⟩
      exact ⟨first, others, sent, parts, rfl⟩

/-- The wire form of a value does not depend on the path. -/
theorem wireValue_ok (value : Value) (path : Path) (document : Json) :
    wireValue value path = .ok document ↔ Wires value document := by
  refine ⟨fun sent => ?_, fun wires => wires path⟩
  induction value generalizing path document with
  | null shape => simpa [Wires] using sent
  | unknown shape => simp at sent
  | text known | bool known => simpa [Wires] using sent
  | number known => cases sending : known.toJson? <;> simp_all [Wires]
  | list element items ih | tuple items ih =>
    have settled : ∀ item ∈ items, ∀ path sent,
        wireValue item path = .ok sent ↔ Wires item sent :=
      fun item held path sent => ⟨ih item held path sent, fun wires => wires path⟩
    intro other
    cases parts : wireItems items 0 path with
    | error error => simp [parts] at sent
    | ok documents =>
      have moved := (wireItems_ok settled 0 other _).2 ((wireItems_ok settled _ _ _).1 parts)
      simpa [parts, moved] using sent
  | set element items ih =>
    have settled : ∀ item ∈ items, ∀ path sent,
        wireValue item path = .ok sent ↔ Wires item sent :=
      fun item held path sent => ⟨ih item held path sent, fun wires => wires path⟩
    intro other
    cases parts : wireElements items path with
    | error error => simp [parts] at sent
    | ok documents =>
      have moved := (wireElements_ok settled other _).2 ((wireElements_ok settled _ _).1 parts)
      simpa [parts, moved] using sent
  | map element entries ih =>
    have settled : ∀ entry ∈ entries, ∀ path sent,
        wireValue entry.2 path = .ok sent ↔ Wires entry.2 sent :=
      fun entry held path sent => ⟨ih entry held path sent, fun wires => wires path⟩
    intro other
    cases parts : wireEntries entries .key path with
    | error error => simp [parts] at sent
    | ok members =>
      have moved := (wireEntries_ok settled .key other _).2 ((wireEntries_ok settled _ _ _).1 parts)
      simpa [parts, moved] using sent
  | object entries ih =>
    have settled : ∀ entry ∈ entries, ∀ path sent,
        wireValue entry.2 path = .ok sent ↔ Wires entry.2 sent :=
      fun entry held path sent => ⟨ih entry held path sent, fun wires => wires path⟩
    intro other
    cases parts : wireEntries entries .attr path with
    | error error => simp [parts] at sent
    | ok members =>
      have aligned := (wireEntries_ok settled _ _ _).1 parts
      have moved := (wireEntries_ok settled .attr other _).2 aligned
      simpa [parts, moved] using sent

@[simp]
theorem wires_null (shape : Shape) (document : Json) :
    Wires (null shape) document ↔ document = .null := by
  simp [Wires, eq_comm]

@[simp]
theorem wires_text (known : String) (document : Json) :
    Wires (text known) document ↔ document = .text known := by
  simp [Wires, eq_comm]

@[simp]
theorem wires_bool (known : Bool) (document : Json) :
    Wires (bool known) document ↔ document = .bool known := by
  simp [Wires, eq_comm]

@[simp]
theorem wires_number (known : Decimal) (document : Json) :
    Wires (number known) document ↔
      ∃ sent, known.toJson? = some sent ∧ document = .number sent := by
  cases sending : known.toJson? <;> simp [Wires, sending, eq_comm]

/-- The wire form of a list. -/
theorem wires_list (element : Shape) (items : List Value) (document : Json) :
    Wires (list element items) document ↔
      ∃ documents, List.Forall₂ Wires items documents ∧ .array documents = document := by
  have staged : wireValue (list element items) .root = .ok document ↔
      ∃ documents, wireItems items 0 .root = .ok documents ∧ .array documents = document := by
    cases sent : wireItems items 0 .root <;> simp [sent]
  rw [← wireValue_ok _ .root, staged]
  simp only [wireItems_ok fun item _ => wireValue_ok item]

/-- The wire form of a tuple is that of a list of its items. -/
theorem wires_tuple (items : List Value) (document : Json) :
    Wires (tuple items) document ↔
      ∃ documents, List.Forall₂ Wires items documents ∧ .array documents = document :=
  wires_list .dynamic items document

/-- The wire form of a set. -/
theorem wires_set (element : Shape) (items : List Value) (document : Json) :
    Wires (set element items) document ↔
      ∃ documents, List.Forall₂ Wires items documents ∧ .array documents = document := by
  have staged : wireValue (set element items) .root = .ok document ↔
      ∃ documents, wireElements items .root = .ok documents ∧ .array documents = document := by
    cases sent : wireElements items .root <;> simp [sent]
  rw [← wireValue_ok _ .root, staged]
  simp only [wireElements_ok fun item _ => wireValue_ok item]

/-- The wire form of a map. -/
theorem wires_map (element : Shape) (entries : List (String × Value)) (document : Json) :
    Wires (map element entries) document ↔
      ∃ members, Entries.Aligned Wires entries members ∧ .object members = document := by
  have staged : wireValue (map element entries) .root = .ok document ↔
      ∃ members, wireEntries entries .key .root = .ok members ∧ .object members = document := by
    cases sent : wireEntries entries .key .root <;> simp [sent]
  rw [← wireValue_ok _ .root, staged]
  simp only [wireEntries_ok fun entry _ => wireValue_ok entry.2]

/-- The wire form of an object. -/
theorem wires_object (entries : List (String × Value)) (document : Json) :
    Wires (object entries) document ↔
      ∃ members, Entries.Aligned Wires entries members ∧ .object members = document := by
  have staged : wireValue (object entries) .root = .ok document ↔
      ∃ members, wireEntries entries .attr .root = .ok members ∧ .object members = document := by
    cases sent : wireEntries entries .attr .root <;> simp [sent]
  rw [← wireValue_ok _ .root, staged]
  simp only [wireEntries_ok fun entry _ => wireValue_ok entry.2]

/-- The wire form of a sequence. -/
theorem wires_items {value : Value} {items : List Value} (found : value.items? = some items)
    (document : Json) :
    Wires value document ↔
      ∃ documents, List.Forall₂ Wires items documents ∧ .array documents = document := by
  cases value with
  | list element own | tuple own | set element own =>
    obtain rfl := Option.some.inj found
    simp only [wires_list, wires_tuple, wires_set]
  | _ => cases found

/-- The wire form of a table. -/
theorem wires_entries {value : Value} {entries : List (String × Value)}
    (found : value.entries? = some entries) (document : Json) :
    Wires value document ↔
      ∃ members, Entries.Aligned Wires entries members ∧ .object members = document := by
  cases value with
  | map element own | object own =>
    obtain rfl := Option.some.inj found
    simp only [wires_map, wires_object]
  | _ => cases found

/-- The wire form of a value holds its shape and its value part. -/
theorem encode_ok {value : Value} {sent : Json} :
    encode value = .ok sent ↔
      ∃ part, Wires value part ∧
        sent = .object [("type", value.shape.toJson), ("value", part)] := by
  simp only [← wireValue_ok _ .root, encode]
  cases wireValue value .root <;> simp [eq_comm]

/-- A null is retyped without a trace on the wire. -/
@[simp]
theorem wires_retypeNull (shape : Shape) (value : Value) (document : Json) :
    Wires (value.retypeNull shape) document ↔ Wires value document := by
  cases value with
  | null own => simp [retypeNull]
  | _ => rfl

/-- The wire form of a well-formed value is well-formed. -/
theorem Wires.wellFormed {value : Value} {document : Json} (wires : Wires value document)
    (formed : value.WellFormed) : document.WellFormed := by
  induction value generalizing document with
  | null shape => simp [(wires_null _ _).1 wires]
  | unknown shape => simpa [wireValue] using wires .root
  | text known => simp [(wires_text _ _).1 wires]
  | bool known => simp [(wires_bool _ _).1 wires]
  | number known =>
    obtain ⟨sent, _, rfl⟩ := (wires_number _ _).1 wires
    exact .number sent
  | list element items ih =>
    obtain ⟨documents, parts, rfl⟩ := (wires_list _ _ _).1 wires
    rw [wellFormed_list] at formed
    refine .array fun document held => ?_
    obtain ⟨item, there, sent⟩ := Paired.exists_left parts held
    exact ih item there sent (formed.2 item there)
  | tuple items ih =>
    obtain ⟨documents, parts, rfl⟩ := (wires_tuple _ _).1 wires
    rw [wellFormed_tuple] at formed
    refine .array fun document held => ?_
    obtain ⟨item, there, sent⟩ := Paired.exists_left parts held
    exact ih item there sent (formed item there)
  | set element items ih =>
    obtain ⟨documents, parts, rfl⟩ := (wires_set _ _ _).1 wires
    rw [wellFormed_set] at formed
    refine .array fun document held => ?_
    obtain ⟨item, there, sent⟩ := Paired.exists_left parts held
    exact ih item there sent (formed.2 item there)
  | map element entries ih =>
    obtain ⟨members, parts, rfl⟩ := (wires_map _ _ _).1 wires
    rw [wellFormed_map] at formed
    refine .object (by simpa only [Entries.Distinct, ← parts.keys_eq] using formed.2.1)
      fun member held => ?_
    obtain ⟨entry, there, _, sent⟩ := Paired.exists_left parts held
    exact ih entry there sent (formed.2.2 entry there)
  | object entries ih =>
    obtain ⟨members, parts, rfl⟩ := (wires_object _ _).1 wires
    rw [wellFormed_object] at formed
    refine .object (by simpa only [Entries.Distinct, ← parts.keys_eq] using formed.1)
      fun member held => ?_
    obtain ⟨entry, there, _, sent⟩ := Paired.exists_left parts held
    exact ih entry there sent (formed.2 entry there)

end TypedTree.Value
