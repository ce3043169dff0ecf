import Mathlib
import TypedTree.Proofs.Convert.Conformance

/-!
# Reading where nothing is declared

Under plain `dynamic` every document is read, and the value is typed as tightly as the document
allows: an array is a list where its items share a shape and a tuple where they do not, and an
object has the keys of its document and no others.
-/

namespace TypedTree.Value

/-- Members are read where nothing is declared when each of them is. -/
theorem exists_readsMembers_dynamic {members : List (String × Json)}
    (each : ∀ member ∈ members, ∃ value, Reads member.2 .dynamic value) :
    ∃ entries, List.Forall₂ (ReadsMember fun _ => some .dynamic) members entries := by
  apply Paired.exists_of_forall
  intro member held
  obtain ⟨value, read⟩ := each member held
  exact ⟨(member.1, value), rfl, .dynamic, rfl, read⟩

/-- Every document is read where nothing is declared. -/
theorem exists_reads_dynamic (document : Json) : ∃ value, Reads document .dynamic value := by
  induction document with
  | null => exact ⟨null .dynamic, (reads_null _ _).2 rfl⟩
  | bool known => exact ⟨bool known, (reads_bool _ _ _).2 ⟨.inr rfl, rfl⟩⟩
  | number known => exact ⟨number (.ofJson known), (reads_number _ _ _).2 ⟨.inr rfl, rfl⟩⟩
  | text known => exact ⟨text known, (reads_text _ _ _).2 (.inl ⟨.inr rfl, rfl⟩)⟩
  | array items ih =>
    obtain ⟨values, parts⟩ := Paired.exists_of_forall ih
    exact ⟨inferSequence values, (reads_sequence _ _).2 ⟨values, parts, rfl⟩⟩
  | object members ih =>
    obtain ⟨entries, parts⟩ := exists_readsMembers_dynamic ih
    exact ⟨object entries, (reads_record _ _).2 ⟨entries, parts, rfl⟩⟩

/--
A value that is typed as tightly as its document. Items are a list when one of them is not null and
all that are not null have shapes equal to the element shape, which the nulls then take; and they
are a tuple when there is no such shape.
-/
inductive Tight : Json → Value → Prop
  | null : Tight .null (null .dynamic)
  | bool (known : Bool) : Tight (.bool known) (bool known)
  | number (known : Json.Number) : Tight (.number known) (number (.ofJson known))
  | text (known : String) : Tight (.text known) (text known)
  | list {items : List Json} {values : List Value} {element : Shape} :
      List.Forall₂ Tight items values → (∃ value ∈ values, value.isNull = false) →
      (∀ value ∈ values, value.isNull = false → element == value.shape) →
      Tight (.array items) (list element (values.map (retypeNull element)))
  | tuple {items : List Json} {values : List Value} :
      List.Forall₂ Tight items values →
      (∀ element : Shape, element.WellFormed → (∃ value ∈ values, value.isNull = false) →
        ¬ ∀ value ∈ values, value.isNull = false → element == value.shape) →
      Tight (.array items) (tuple values)
  | object {members : List (String × Json)} {entries : List (String × Value)} :
      Entries.keys members = Entries.keys entries →
      List.Forall₂ Tight (members.map Prod.snd) (entries.map Prod.snd) →
      Tight (.object members) (object entries)

/-- A shape is shared when it equals the shape of every item that is not null. -/
theorem shares_iff {element : Shape} {items : List Value} :
    Shares element items ↔ ∀ item ∈ items, item.isNull = false → element == item.shape := by
  simp only [Shares, or_iff_not_imp_left, Bool.not_eq_true]

/-- What is read where nothing is declared is typed as tightly as the document. -/
theorem Reads.tight {document : Json} {value : Value} (read : Reads document .dynamic value)
    (distinct : document.WellFormed) : Tight document value := by
  induction document generalizing value with
  | null =>
    obtain rfl := (reads_null _ _).1 read
    exact .null
  | bool known =>
    obtain ⟨-, rfl⟩ := (reads_bool _ _ _).1 read
    exact .bool known
  | number known =>
    obtain ⟨-, rfl⟩ := (reads_number _ _ _).1 read
    exact .number known
  | text known =>
    obtain ⟨-, rfl⟩ | ⟨other, -⟩ := (reads_text _ _ _).1 read
    · exact .text known
    · cases other
  | array items ih =>
    rw [Json.wellFormed_array] at distinct
    obtain ⟨values, parts, rfl⟩ := (reads_sequence _ _).1 read
    have formed := forall_wellFormed distinct .dynamic parts
    have tight : List.Forall₂ Tight items values := by
      apply Paired.imp parts
      intro item held value _ read
      exact ih item held read (distinct item held)
    rcases inferSequence_cases formed with ⟨element, _, inferred, present, same⟩ | ⟨none, same⟩
    · rw [same]
      exact .list tight present (shares_iff.1 inferred.1)
    · rw [same]
      refine .tuple tight fun element declared present shared => ?_
      obtain ⟨value, held, known⟩ := present
      obtain ⟨found, some⟩ := exists_sharedShape? declared (shares_iff.2 shared) held known
      rw [none] at some
      cases some
  | object members ih =>
    rw [Json.wellFormed_object] at distinct
    obtain ⟨entries, parts, rfl⟩ := (reads_record _ _).1 read
    refine .object (ReadsMember.keys_eq parts) ?_
    rw [List.forall₂_map_left_iff, List.forall₂_map_right_iff]
    apply Paired.imp parts
    rintro member held entry - ⟨-, shape, slot, read⟩
    obtain rfl := Option.some.inj slot
    exact ih member held read (distinct.2 member held)

/-- Neither a set nor a map nor unknown: only a declared shape gives the first two. -/
def Inferable : Value → Prop
  | set _ _ | map _ _ | unknown _ => False
  | _ => True

/-- A null that takes a shape stays inferable throughout, as does every other value. -/
theorem inferable_retypeNull {shape : Shape} {value part : Value}
    (inferable : ∀ part, Inside part value → part.Inferable)
    (inside : Inside part (value.retypeNull shape)) : part.Inferable := by
  cases absent : value.isNull with
  | true =>
    rw [retypeNull_of_null shape absent] at inside
    cases inside with
    | here => trivial
    | within held => cases held
  | false =>
    rw [retypeNull_of_present shape absent] at inside
    exact inferable part inside

/-- Nothing but what can be inferred is inside what is read where nothing is declared. -/
theorem Reads.inferable {document : Json} {value : Value} (read : Reads document .dynamic value) :
    ∀ part, Inside part value → part.Inferable := by
  induction document generalizing value with
  | null =>
    obtain rfl := (reads_null _ _).1 read
    rintro part (_ | ⟨⟨⟩, -⟩)
    trivial
  | bool known =>
    obtain ⟨-, rfl⟩ := (reads_bool _ _ _).1 read
    rintro part (_ | ⟨⟨⟩, -⟩)
    trivial
  | number known =>
    obtain ⟨-, rfl⟩ := (reads_number _ _ _).1 read
    rintro part (_ | ⟨⟨⟩, -⟩)
    trivial
  | text known =>
    obtain ⟨-, rfl⟩ | ⟨other, -⟩ := (reads_text _ _ _).1 read
    · rintro part (_ | ⟨⟨⟩, -⟩)
      trivial
    · cases other
  | array items ih =>
    obtain ⟨values, parts, rfl⟩ := (reads_sequence _ _).1 read
    have each : ∀ value ∈ values, ∀ part, Inside part value → part.Inferable := by
      intro value held
      obtain ⟨item, there, read⟩ := Paired.exists_left parts held
      exact ih item there read
    intro part inside
    cases shared : sharedShape? values with
    | none =>
      simp only [inferSequence, shared] at inside
      cases inside with
      | here => trivial
      | within held inside => exact each _ held part inside
    | some element =>
      simp only [inferSequence, shared] at inside
      cases inside with
      | here => trivial
      | within held inside =>
        obtain ⟨value, there, rfl⟩ := List.mem_map.1 held
        exact inferable_retypeNull (each value there) inside
  | object members ih =>
    obtain ⟨entries, parts, rfl⟩ := (reads_record _ _).1 read
    intro part inside
    cases inside with
    | here => trivial
    | within held inside =>
      obtain ⟨entry, there, rfl⟩ := List.mem_map.1 held
      obtain ⟨member, source, -, shape, slot, read⟩ := Paired.exists_left parts there
      obtain rfl := Option.some.inj slot
      exact ih member source read part inside

/--
Where nothing is declared every document is converted, at every path: to a value that conforms, that
holds neither sets nor maps nor unknown values, and that is typed as tightly as the document.
-/
theorem ofJson_dynamic_tight {document : Json} (distinct : document.WellFormed) :
    ∃ value, (∀ path, ofJson document .dynamic path = .ok value) ∧ value.conforms = true ∧
      (∀ part, Inside part value → part.Inferable) ∧ Tight document value := by
  obtain ⟨value, read⟩ := exists_reads_dynamic document
  have conforms := (read.conforms_iff distinct .dynamic).2 (not_misfits_dynamic document)
  exact ⟨value, read, conforms, read.inferable, read.tight distinct⟩

/-- Items that share a shape beside a null, items that do not, and items that are all null. -/
def looseDocument : Json :=
  .object [("shared", .array [.null, .int 80, .int 443]), ("mixed", .array [.int 1, .text "x"]),
    ("none", .array [.null])]

/-- What is read from these: a list, a tuple of two shapes, and a tuple of a null. -/
def looseValue : Value :=
  .object [("shared", .list .number [.null .number, .number (.ofInt 80), .number (.ofInt 443)]),
    ("mixed", .tuple [.number (.ofInt 1), .text "x"]), ("none", .tuple [.null .dynamic])]

/-- The items that share a shape are a list of it, their null included; the others are tuples. -/
theorem looseDocument_tight :
    looseDocument.WellFormed ∧ (∀ path, ofJson looseDocument .dynamic path = .ok looseValue) ∧
      looseValue.conforms = true ∧ Tight looseDocument looseValue := by
  have distinct : looseDocument.WellFormed := by
    simp [looseDocument, Json.int, Entries.Distinct]
  obtain ⟨value, read, conforms, -, tight⟩ := ofJson_dynamic_tight distinct
  have own : ofJson looseDocument .dynamic .root = .ok looseValue := by cbv
  obtain rfl := Except.ok.inj ((read .root).symm.trans own)
  exact ⟨distinct, read, conforms, tight⟩

end TypedTree.Value
