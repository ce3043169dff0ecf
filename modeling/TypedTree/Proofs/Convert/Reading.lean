import TypedTree.Convert.Inbound
import TypedTree.Proofs.Decimal.Positional
import TypedTree.Proofs.Json.Distinct
import TypedTree.Proofs.Value.Equality

/-!
# What a document reads as

A conversion that succeeds gives the same value at every path, so the value is a matter of the
document and the shape alone. `Reads` says so, and one statement for each kind of document and shape
says which values there are, in terms of the values of the parts.
-/

namespace TypedTree.Value

attribute [local simp] ofJson itemsOfJson membersOfJson

/-- A document reads as a value under a shape: the conversion gives that value, at any path. -/
def Reads (document : Json) (shape : Shape) (value : Value) : Prop :=
  ∀ path, ofJson document shape path = .ok value

/-- Items are converted one by one, each in the slot and under the step of its position. -/
theorem itemsOfJson_ok (items : List Json) (slot : Nat → Shape) (position : Nat) (path : Path)
    (values : List Value) :
    itemsOfJson items slot position path = .ok values ↔
      List.Forall₂ (fun item value =>
          ofJson item.1 (slot item.2) (path.push (.index item.2)) = .ok value)
        (items.zipIdx position) values := by
  induction items generalizing position values with
  | nil => cases values <;> simp
  | cons item rest ih =>
    cases first : ofJson item (slot position) (path.push (.index position)) with
    | error error => cases values <;> simp [first]
    | ok value =>
      cases values with
      | nil => cases others : itemsOfJson rest slot (position + 1) path <;>
          simp [first, others]
      | cons head tail =>
        have remaining := ih (position + 1) tail
        cases others : itemsOfJson rest slot (position + 1) path with
        | error error => simp [first, others, ← remaining]
        | ok values => simp [first, others, ← remaining]

/-- Members are converted one by one, each under the shape and the step of its name. -/
theorem membersOfJson_ok (members : List (String × Json)) (step : String → Step)
    (slot : String → Option Shape) (path : Path) (entries : List (String × Value)) :
    membersOfJson members step slot path = .ok entries ↔
      List.Forall₂ (fun member entry => member.1 = entry.1 ∧ ∃ shape, slot member.1 = some shape ∧
          ofJson member.2 shape (path.push (step member.1)) = .ok entry.2)
        members entries := by
  induction members generalizing entries with
  | nil => cases entries <;> simp
  | cons member rest ih =>
    obtain ⟨name, document⟩ := member
    cases declared : slot name with
    | none => cases entries <;> simp [declared]
    | some shape =>
      cases first : ofJson document shape (path.push (step name)) with
      | error error => cases entries <;> simp [declared, first]
      | ok value =>
        cases entries with
        | nil => cases others : membersOfJson rest step slot path <;>
            simp [declared, first, others]
        | cons head tail =>
          have remaining := ih tail
          cases others : membersOfJson rest step slot path with
          | error error => simp [declared, first, others, ← remaining]
          | ok entries =>
            simp [declared, first, others, ← remaining, Prod.ext_iff, and_assoc]

/-- A collection over a unified shape holds the members with that shape for their nulls. -/
theorem homogeneous_ok (make : Shape → List Value → Value) (declared : Shape) (items : List Value)
    (path : Path) (value : Value) :
    homogeneous make declared items path = .ok value ↔
      ∃ element, unify declared (indexed items) = .ok element ∧
        value = make element (items.map (retypeNull element)) := by
  cases unified : unify declared (indexed items) <;> simp [homogeneous, unified, eq_comm]

/-- A map over a unified shape holds the entries with that shape for their nulls. -/
theorem homogeneousMap_ok (declared : Shape) (entries : List (String × Value)) (path : Path)
    (value : Value) :
    homogeneousMap declared entries path = .ok value ↔
      ∃ element, unify declared (keyed entries) = .ok element ∧
        value = map element (entries.map fun entry => (entry.1, entry.2.retypeNull element)) := by
  cases unified : unify declared (keyed entries) <;> simp [homogeneousMap, unified, eq_comm]

/-- Items convert alike at every path when each of them does. -/
theorem itemsOfJson_moved {items : List Json} {slot : Nat → Shape} {path : Path}
    {values : List Value}
    (each : ∀ item ∈ items, ∀ shape path value, ofJson item shape path = .ok value →
      Reads item shape value)
    (converted : itemsOfJson items slot 0 path = .ok values) (other : Path) :
    itemsOfJson items slot 0 other = .ok values := by
  rw [itemsOfJson_ok] at converted ⊢
  refine Paired.imp converted fun item held _ _ step => ?_
  exact each item.1 (List.fst_mem_of_mem_zipIdx held) _ _ _ step _

/-- Members convert alike at every path when each of them does. -/
theorem membersOfJson_moved {members : List (String × Json)} {step : String → Step}
    {slot : String → Option Shape} {path : Path} {entries : List (String × Value)}
    (each : ∀ member ∈ members, ∀ shape path value, ofJson member.2 shape path = .ok value →
      Reads member.2 shape value)
    (converted : membersOfJson members step slot path = .ok entries) (other : Path) :
    membersOfJson members step slot other = .ok entries := by
  rw [membersOfJson_ok] at converted ⊢
  refine Paired.imp converted fun member held _ _ found => ?_
  obtain ⟨same, shape, declared, read⟩ := found
  exact ⟨same, shape, declared, each member held _ _ _ read _⟩

/-- A conversion that succeeds at one path gives its value at every path. -/
theorem reads_of_ofJson {document : Json} {shape : Shape} {path : Path} {value : Value}
    (converted : ofJson document shape path = .ok value) : Reads document shape value := by
  induction document generalizing shape path value with
  | null => exact fun _ => converted
  | bool known | number known => cases shape <;> simp_all [Reads]
  | text known =>
    cases shape with
    | number => cases numeral : Decimal.read? known <;> simp_all [Reads]
    | _ => simp_all [Reads]
  | array items ih =>
    have each : ∀ item ∈ items, ∀ shape path value, ofJson item shape path = .ok value →
        Reads item shape value := fun item held _ _ _ => ih item held
    intro other
    cases shape with
    | list element | set element =>
      cases items : itemsOfJson items (fun _ => element) 0 path with
      | error error => simp [items] at converted
      | ok values =>
        simp only [ofJson, items, homogeneous_ok] at converted
        simpa only [ofJson, itemsOfJson_moved each items other, homogeneous_ok] using converted
    | tuple slots =>
      simp only [ofJson] at converted ⊢
      split at converted
      · contradiction
      · rename_i fits
        cases items : itemsOfJson items (slotAt slots items.length) 0 path with
        | error error => simp [items] at converted
        | ok values => simp_all [itemsOfJson_moved each items other]
    | dynamic =>
      cases items : itemsOfJson items (fun _ => .dynamic) 0 path with
      | error error => simp [items] at converted
      | ok values => simp_all [itemsOfJson_moved each items other]
    | _ => simp at converted
  | object members ih =>
    have each : ∀ member ∈ members, ∀ shape path value,
        ofJson member.2 shape path = .ok value → Reads member.2 shape value :=
      fun member held _ _ _ => ih member held
    intro other
    cases shape with
    | object attributes =>
      cases members : membersOfJson members .attr (Entries.get? attributes) path with
      | error error => simp [members] at converted
      | ok entries => simp_all [membersOfJson_moved each members other]
    | map element =>
      cases members : membersOfJson members .key (fun _ => some element) path with
      | error error => simp [members] at converted
      | ok entries =>
        simp only [ofJson, members, homogeneousMap_ok] at converted
        have moved := membersOfJson_moved each members other
        simpa only [ofJson, moved, homogeneousMap_ok] using converted
    | dynamic =>
      cases members : membersOfJson members .attr (fun _ => some .dynamic) path with
      | error error => simp [members] at converted
      | ok entries => simp_all [membersOfJson_moved each members other]
    | _ => simp at converted

/-- The conversion at a path succeeds with the value that the document reads as. -/
theorem ofJson_ok (document : Json) (shape : Shape) (path : Path) (value : Value) :
    ofJson document shape path = .ok value ↔ Reads document shape value :=
  ⟨reads_of_ofJson, fun read => read path⟩

/-- What an entry holds when a member of an object is read in the slot of its name. -/
def ReadsMember (slot : String → Option Shape) (member : String × Json)
    (entry : String × Value) : Prop :=
  member.1 = entry.1 ∧ ∃ shape, slot member.1 = some shape ∧ Reads member.2 shape entry.2

/-- Slots that do not depend on the position can be left out. -/
theorem forall₂_zipIdx {α β : Type} (related : α → β → Prop) (as : List α) (position : Nat)
    (bs : List β) :
    List.Forall₂ (fun a b => related a.1 b) (as.zipIdx position) bs ↔
      List.Forall₂ related as bs := by
  rw [← List.forall₂_map_left_iff, List.zipIdx_map_fst]

/-- Slots that are given by a list can be taken from the list. -/
theorem forall₂_slots {α β : Type} (related : α → Shape → β → Prop) (as : List α)
    (position : Nat) (bs : List β) {slot : Nat → Shape} {slots : List Shape}
    (size : slots.length = as.length)
    (given : ∀ offset, slot (position + offset) = (slots[offset]?).getD .dynamic) :
    List.Forall₂ (fun a b => related a.1 (slot a.2) b) (as.zipIdx position) bs ↔
      List.Forall₂ (fun a b => related a.1 a.2 b) (as.zip slots) bs := by
  induction as generalizing position bs slots with
  | nil => simp
  | cons a as ih =>
    obtain _ | ⟨first, slots⟩ := slots
    · simp at size
    · have here : slot position = first := by simpa using given 0
      have others (offset : Nat) :
          slot (position + 1 + offset) = (slots[offset]?).getD .dynamic := by
        simpa [Nat.add_assoc, Nat.add_comm 1] using given (offset + 1)
      cases bs with
      | nil => simp
      | cons b bs => simp [here, ih (position + 1) bs (by simpa using size) others]

@[simp]
theorem reads_null (shape : Shape) (value : Value) :
    Reads .null shape value ↔ value = null shape := by
  simp [Reads, eq_comm]

@[simp]
theorem reads_bool (known : Bool) (shape : Shape) (value : Value) :
    Reads (.bool known) shape value ↔
      (shape = .bool ∨ shape = .dynamic) ∧ value = bool known := by
  cases shape <;> simp [Reads, eq_comm]

@[simp]
theorem reads_number (known : Json.Number) (shape : Shape) (value : Value) :
    Reads (.number known) shape value ↔
      (shape = .number ∨ shape = .dynamic) ∧ value = number (Decimal.ofJson known) := by
  cases shape <;> simp [Reads, eq_comm]

@[simp]
theorem reads_text (known : String) (shape : Shape) (value : Value) :
    Reads (.text known) shape value ↔
      (shape = .string ∨ shape = .dynamic) ∧ value = text known ∨
        shape = .number ∧ ∃ n, Decimal.read? known = some n ∧ value = number n := by
  cases shape with
  | number => cases numeral : Decimal.read? known <;> simp [Reads, numeral, eq_comm]
  | _ => simp [Reads, eq_comm]

/-- The shapes that admit an array. -/
theorem Reads.array_shape {items : List Json} {shape : Shape} {value : Value}
    (read : Reads (.array items) shape value) :
    (∃ element, shape = .list element) ∨ (∃ element, shape = .set element) ∨
      (∃ slots, shape = .tuple slots) ∨ shape = .dynamic := by
  have converted := read .root
  cases shape <;> simp_all

/-- The shapes that admit an object. -/
theorem Reads.object_shape {members : List (String × Json)} {shape : Shape} {value : Value}
    (read : Reads (.object members) shape value) :
    (∃ attributes, shape = .object attributes) ∨ (∃ element, shape = .map element) ∨
      shape = .dynamic := by
  have converted := read .root
  cases shape <;> simp_all

/-- The items of an array, each read in its slot. -/
theorem itemsOfJson_reads (items : List Json) (slot : Nat → Shape) (position : Nat) (path : Path)
    (values : List Value) :
    itemsOfJson items slot position path = .ok values ↔
      List.Forall₂ (fun item value => Reads item.1 (slot item.2) value)
        (items.zipIdx position) values := by
  simp only [itemsOfJson_ok, ofJson_ok]

/-- The items of an array that are all read under one shape. -/
theorem itemsOfJson_uniform (items : List Json) (shape : Shape) (path : Path)
    (values : List Value) :
    itemsOfJson items (fun _ => shape) 0 path = .ok values ↔
      List.Forall₂ (Reads · shape ·) items values := by
  rw [itemsOfJson_reads, ← forall₂_zipIdx (Reads · shape ·) items 0 values]

/-- The members of an object, each read in its slot. -/
theorem membersOfJson_reads (members : List (String × Json)) (step : String → Step)
    (slot : String → Option Shape) (path : Path) (entries : List (String × Value)) :
    membersOfJson members step slot path = .ok entries ↔
      List.Forall₂ (ReadsMember slot) members entries := by
  simp only [membersOfJson_ok, ofJson_ok]
  rfl

/-- What an array reads as under a list shape. -/
theorem reads_list (items : List Json) (declared : Shape) (value : Value) :
    Reads (.array items) (.list declared) value ↔
      ∃ values element, List.Forall₂ (Reads · declared ·) items values ∧
        unify declared (indexed values) = .ok element ∧
        value = list element (values.map (retypeNull element)) := by
  simp only [← itemsOfJson_uniform items declared .root]
  rw [← ofJson_ok _ _ .root, ofJson]
  cases itemsOfJson items (fun _ => declared) 0 .root <;> simp [homogeneous_ok]

/-- What an array reads as under a set shape. -/
theorem reads_set (items : List Json) (declared : Shape) (value : Value) :
    Reads (.array items) (.set declared) value ↔
      ∃ values element, List.Forall₂ (Reads · declared ·) items values ∧
        unify declared (indexed values) = .ok element ∧
        value = set element (values.map (retypeNull element)) := by
  simp only [← itemsOfJson_uniform items declared .root]
  rw [← ofJson_ok _ _ .root, ofJson]
  cases itemsOfJson items (fun _ => declared) 0 .root <;> simp [homogeneous_ok]

/-- What an array reads as where nothing is declared. -/
theorem reads_sequence (items : List Json) (value : Value) :
    Reads (.array items) .dynamic value ↔
      ∃ values, List.Forall₂ (Reads · .dynamic ·) items values ∧ value = inferSequence values := by
  simp only [← itemsOfJson_uniform items .dynamic .root]
  rw [← ofJson_ok _ _ .root, ofJson]
  cases itemsOfJson items (fun _ => .dynamic) 0 .root <;> simp [eq_comm]

/--
What an array reads as under a tuple shape: every item in its own slot, or all of them in the only
slot where their number is another than one.
-/
theorem reads_tuple (items : List Json) (slots : List Shape) (value : Value) :
    Reads (.array items) (.tuple slots) value ↔
      ∃ values, value = tuple values ∧
        (slots.length = items.length ∧
            List.Forall₂ (fun item value => Reads item.1 item.2 value) (items.zip slots) values ∨
          ∃ slot, slots = [slot] ∧ items.length ≠ 1 ∧
            List.Forall₂ (Reads · slot ·) items values) := by
  by_cases spread : broadcasts slots items.length = true
  · have one : slots.length = 1 ∧ items.length ≠ 1 := by simpa [broadcasts] using spread
    obtain ⟨slot, rfl⟩ := List.length_eq_one_iff.1 one.1
    have single : slotAt [slot] items.length = fun _ => slot := by
      funext position
      simp [slotAt, spread]
    have other : ¬ 1 = items.length := fun same => one.2 same.symm
    have parts := itemsOfJson_uniform items slot .root
    rw [← ofJson_ok _ _ .root, ofJson, spread, single]
    cases converted : itemsOfJson items (fun _ => slot) 0 .root <;>
      simp [one.2, other, eq_comm, ← parts, converted]
  · have apart (slot : Shape) (one : slots = [slot]) : items.length = 1 := by
      simpa [broadcasts, one] using spread
    have single (holds : Shape → Prop) :
        ¬ ∃ slot, slots = [slot] ∧ items.length ≠ 1 ∧ holds slot :=
      fun ⟨slot, one, more, _⟩ => more (apart slot one)
    simp only [single, or_false]
    rw [← ofJson_ok _ _ .root, ofJson]
    by_cases size : slots.length = items.length
    · have own (position : Nat) :
          slotAt slots items.length (0 + position) = (slots[position]?).getD .dynamic := by
        simp [slotAt, spread]
      have parts := itemsOfJson_reads items (slotAt slots items.length) 0 .root
      simp only [forall₂_slots Reads items 0 _ size own] at parts
      simp only [← parts, size, true_and]
      cases converted : itemsOfJson items (slotAt slots items.length) 0 .root <;> simp [eq_comm]
    · have refused : (!broadcasts slots items.length && slots.length != items.length) = true := by
        simp [spread, size]
      simp [refused, size]

/-- What an object reads as under an object shape: declared attributes that are missing are null. -/
theorem reads_object (members : List (String × Json)) (attributes : List (String × Shape))
    (value : Value) :
    Reads (.object members) (.object attributes) value ↔
      ∃ entries, List.Forall₂ (ReadsMember (Entries.get? attributes)) members entries ∧
        value = object (entries ++ missingAttributes attributes entries) := by
  simp only [← membersOfJson_reads members .attr _ .root]
  rw [← ofJson_ok _ _ .root, ofJson]
  cases membersOfJson members .attr (Entries.get? attributes) .root <;> simp [eq_comm]

/-- What an object reads as under a map shape. -/
theorem reads_map (members : List (String × Json)) (declared : Shape) (value : Value) :
    Reads (.object members) (.map declared) value ↔
      ∃ entries element, List.Forall₂ (ReadsMember fun _ => some declared) members entries ∧
        unify declared (keyed entries) = .ok element ∧
        value = map element (entries.map fun entry => (entry.1, entry.2.retypeNull element)) := by
  simp only [← membersOfJson_reads members .key _ .root]
  rw [← ofJson_ok _ _ .root, ofJson]
  cases membersOfJson members .key (fun _ => some declared) .root <;> simp [homogeneousMap_ok]

/-- What an object reads as where nothing is declared. -/
theorem reads_record (members : List (String × Json)) (value : Value) :
    Reads (.object members) .dynamic value ↔
      ∃ entries, List.Forall₂ (ReadsMember fun _ => some .dynamic) members entries ∧
        value = object entries := by
  simp only [← membersOfJson_reads members .attr _ .root]
  rw [← ofJson_ok _ _ .root, ofJson]
  cases membersOfJson members .attr (fun _ => some .dynamic) .root <;> simp [eq_comm]

end TypedTree.Value
