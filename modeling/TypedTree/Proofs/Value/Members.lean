import TypedTree.Proofs.Shape.Acceptance
import TypedTree.Proofs.Value.Equality

/-!
# Members of values

A value conforms when every collection in it admits the shapes of its members. The slots of a tuple
and the attributes of an object are the shapes of their members, so those ask for nothing more.
-/

namespace TypedTree.Value

/-- The values directly inside a value: the items of a sequence, the values of entries. -/
def members : Value → List Value
  | list _ items | tuple items | set _ items => items
  | map _ entries | object entries => entries.map Prod.snd
  | _ => []

/-- To show a property of all values, show it of a value whose members have it. -/
theorem members_induction {motive : Value → Prop}
    (step : ∀ value, (∀ member ∈ value.members, motive member) → motive value) (value : Value) :
    motive value := by
  induction value with
  | null | unknown | text | bool | number => exact step _ (by simp [members])
  | list element items ih | tuple items ih | set element items ih => exact step _ ih
  | map element entries ih | object entries ih => exact step _ (List.forall_mem_map.2 ih)

/-- The items of a value are its members. -/
theorem members_of_items? {value : Value} {items : List Value} (found : value.items? = some items) :
    value.members = items := by
  cases value <;> simp_all [items?, members]

/-- The values of the entries of a value are its members. -/
theorem members_of_entries? {value : Value} {entries : List (String × Value)}
    (found : value.entries? = some entries) : value.members = entries.map Prod.snd := by
  cases value <;> simp_all [entries?, members]

/-- The members of a well-formed value are well-formed. -/
theorem WellFormed.member {value member : Value} (formed : value.WellFormed)
    (held : member ∈ value.members) : member.WellFormed := by
  cases formed with
  | list _ parts | tuple parts | set _ parts => exact parts member held
  | map _ _ parts | object _ parts =>
    obtain ⟨entry, there, rfl⟩ := List.mem_map.1 held
    exact parts entry there
  | _ => cases held

/-- Tables that correspond hold the same values, in some arrangement. -/
theorem exists_arranged {as bs : List (String × Value)} (distinct : Entries.Distinct as)
    (matching : Entries.Corresponds Same as bs) :
    ∃ arranged, List.Forall₂ Same (as.map Prod.snd) arranged ∧
      arranged.Perm (bs.map Prod.snd) := by
  obtain ⟨arranged, aligned, order⟩ := matching.exists_aligned distinct
  exact ⟨_, aligned.values, order.map Prod.snd⟩

/-- Values that are the same have the same members, in some arrangement. -/
theorem Same.members {a b : Value} (formed : a.WellFormed) (same : Same a b) :
    ∃ arranged, List.Forall₂ Same a.members arranged ∧ arranged.Perm b.members := by
  cases formed with
  | list _ _ =>
    obtain ⟨_, others, rfl, _, parts⟩ := (list_same _ _ _).1 same
    exact ⟨others, parts, .refl _⟩
  | tuple _ =>
    obtain ⟨others, rfl, parts⟩ := (tuple_same _ _).1 same
    exact ⟨others, parts, .refl _⟩
  | set _ _ =>
    obtain ⟨_, others, rfl, _, arranged, parts, order⟩ := (set_same _ _ _).1 same
    exact ⟨arranged, parts, order⟩
  | map _ distinct _ =>
    obtain ⟨_, others, rfl, _, matching⟩ := (map_same _ _ _).1 same
    exact exists_arranged distinct matching
  | object distinct _ =>
    obtain ⟨others, rfl, matching⟩ := (object_same _ _).1 same
    exact exists_arranged distinct matching
  | _ => cases same; exact ⟨[], .nil, .refl _⟩

/-- A value is inside itself and inside everything that one of its surroundings is inside. -/
inductive Inside (part : Value) : Value → Prop
  | here : Inside part part
  | within {member whole : Value} : member ∈ whole.members → Inside part member →
      Inside part whole

/-- Items fit an element shape one by one. -/
theorem allFit_iff (element : Shape) (items : List Value) :
    allFit element items = true ↔
      ∀ item ∈ items, element.accepts item.shape = true ∧ item.conforms = true := by
  induction items with
  | nil => simp [allFit]
  | cons item rest ih => simp [allFit, ih, and_assoc]

/-- Entries fit an element shape one by one. -/
theorem allEntriesFit_iff (element : Shape) (entries : List (String × Value)) :
    allEntriesFit element entries = true ↔
      ∀ entry ∈ entries, element.accepts entry.2.shape = true ∧ entry.2.conforms = true := by
  induction entries with
  | nil => simp [allEntriesFit]
  | cons entry rest ih => simp [allEntriesFit, ih, and_assoc]

/-- Items conform one by one. -/
theorem allConform_iff (items : List Value) :
    allConform items = true ↔ ∀ item ∈ items, item.conforms = true := by
  induction items with
  | nil => simp [allConform]
  | cons item rest ih => simp [allConform, ih]

/-- Entries conform one by one. -/
theorem allEntriesConform_iff (entries : List (String × Value)) :
    allEntriesConform entries = true ↔ ∀ entry ∈ entries, entry.2.conforms = true := by
  induction entries with
  | nil => simp [allEntriesConform]
  | cons entry rest ih => simp [allEntriesConform, ih]

@[simp]
theorem conforms_list (element : Shape) (items : List Value) :
    (list element items).conforms = true ↔
      ∀ item ∈ items, element.accepts item.shape = true ∧ item.conforms = true :=
  allFit_iff element items

@[simp]
theorem conforms_set (element : Shape) (items : List Value) :
    (set element items).conforms = true ↔
      ∀ item ∈ items, element.accepts item.shape = true ∧ item.conforms = true :=
  allFit_iff element items

@[simp]
theorem conforms_map (element : Shape) (entries : List (String × Value)) :
    (map element entries).conforms = true ↔
      ∀ entry ∈ entries, element.accepts entry.2.shape = true ∧ entry.2.conforms = true :=
  allEntriesFit_iff element entries

@[simp]
theorem conforms_tuple (items : List Value) :
    (tuple items).conforms = true ↔ ∀ item ∈ items, item.conforms = true :=
  allConform_iff items

@[simp]
theorem conforms_object (entries : List (String × Value)) :
    (object entries).conforms = true ↔ ∀ entry ∈ entries, entry.2.conforms = true :=
  allEntriesConform_iff entries

@[simp]
theorem conforms_null (shape : Shape) : (null shape).conforms = true := rfl

@[simp]
theorem conforms_retypeNull (shape : Shape) (value : Value) :
    (value.retypeNull shape).conforms = value.conforms := by
  cases value <;> rfl

end TypedTree.Value
