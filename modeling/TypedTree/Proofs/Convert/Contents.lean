import Mathlib
import TypedTree.Proofs.Convert.Assembly
import TypedTree.Proofs.Convert.Wiring
import TypedTree.Proofs.Decimal.Exactness

/-!
# The wire form keeps the contents of the document

A document that is read under a shape and sent comes out with the same contents: nothing is lost,
doubled or reordered at any depth, whatever was inferred, spread over a sequence or retyped on the
way. Only two things change. A numeral that is read as a number goes out as that number, and an
object that is read under attributes gets those that it lacks, as nulls, behind its own members.
-/

namespace TypedTree

namespace Shape

/-- The shape under which an object has the member of a name read. -/
def memberSlot (shape : Shape) (name : String) : Shape :=
  match shape with
  | object attributes => (Entries.get? attributes name).getD dynamic
  | map element => element
  | _ => dynamic

/-- The slot of a member that is not declared is plain `dynamic`. -/
theorem memberSlot_eq (shape : Shape) (name : String) :
    shape.memberSlot name = (shape.memberSlot? name).getD .dynamic := by
  cases shape <;> rfl

/-- The declared attributes that members lack, as nulls in the order in which they are declared. -/
def lacking (shape : Shape) (members : List (String × Json)) : List (String × Json) :=
  match shape with
  | object attributes =>
    (attributes.filter fun declared => (Entries.get? members declared.1).isNone).map
      fun declared => (declared.1, .null)
  | _ => []

end Shape

namespace Value

/--
What is sent keeps the contents of a document that is read under a shape. Items and members are
compared position by position, each under the shape of its slot. Behind the members stand the
declared attributes that the object lacks, and nothing else.
-/
inductive Keeps : Shape → Json → Json → Prop
  | null (shape : Shape) : Keeps shape .null .null
  | bool (shape : Shape) (known : Bool) : Keeps shape (.bool known) (.bool known)
  | text {shape : Shape} (known : String) : shape ≠ .number →
      Keeps shape (.text known) (.text known)
  | numeral {known : String} {n : Decimal} {sent : Json.Number} :
      Decimal.read? known = some n → Decimal.ofJson sent = n →
      Keeps .number (.text known) (.number sent)
  | number (shape : Shape) {known sent : Json.Number} :
      Decimal.ofJson sent = Decimal.ofJson known → Keeps shape (.number known) (.number sent)
  | array {shape : Shape} {items sent : List Json} : items.length = sent.length →
      (∀ (position : Nat) (item out : Json), items[position]? = some item →
        sent[position]? = some out →
        Keeps (shape.itemSlot items.length position) item out) →
      Keeps shape (.array items) (.array sent)
  | object {shape : Shape} {members kept : List (String × Json)} :
      Entries.keys members = Entries.keys kept →
      (∀ (position : Nat) (member out : String × Json), members[position]? = some member →
        kept[position]? = some out →
        Keeps (shape.memberSlot member.1) member.2 out.2) →
      Keeps shape (.object members) (.object (kept ++ shape.lacking members))

section Containers

variable {shape : Shape} {value : Value} {sent : Json} {items : List Json}
  {members : List (String × Json)}

/-- Untyped items go out as they are, whether they share a shape or not. -/
theorem wires_inferSequence (values : List Value) (document : Json) :
    Wires (inferSequence values) document ↔
      ∃ documents, List.Forall₂ Wires values documents ∧ .array documents = document := by
  cases shared : sharedShape? values with
  | none => simp only [inferSequence, shared, wires_tuple]
  | some element =>
    simp only [inferSequence, shared, wires_list, List.forall₂_map_left_iff, wires_retypeNull]

/-- Whatever items become, the whole goes out as the array of what they go out as. -/
theorem FromItems.wires {values : List Value} (made : FromItems shape values value)
    (wires : Wires value sent) :
    ∃ documents, List.Forall₂ Wires values documents ∧ sent = .array documents := by
  cases made with
  | list =>
    obtain ⟨documents, wired, rfl⟩ := (wires_list _ _ _).1 wires
    simp only [List.forall₂_map_left_iff, wires_retypeNull] at wired
    exact ⟨documents, wired, rfl⟩
  | set =>
    obtain ⟨documents, wired, rfl⟩ := (wires_set _ _ _).1 wires
    simp only [List.forall₂_map_left_iff, wires_retypeNull] at wired
    exact ⟨documents, wired, rfl⟩
  | tuple =>
    obtain ⟨documents, wired, rfl⟩ := (wires_tuple _ _).1 wires
    exact ⟨documents, wired, rfl⟩
  | sequence =>
    obtain ⟨documents, wired, rfl⟩ := (wires_inferSequence _ _).1 wires
    exact ⟨documents, wired, rfl⟩

/-- An array goes out as the array of what its items read as in their slots. -/
theorem Reads.sent_array (read : Reads (.array items) shape value) (wires : Wires value sent) :
    ∃ values documents, sent = .array documents ∧
      List.Forall₂ (fun item value => Reads item.1 (shape.itemSlot items.length item.2) value)
        items.zipIdx values ∧ List.Forall₂ Wires values documents := by
  obtain ⟨values, parts, made⟩ := reads_array.1 read
  obtain ⟨documents, wired, rfl⟩ := made.wires wires
  exact ⟨values, documents, rfl, parts, wired⟩

/-- The missing attributes go out as nulls under their names. -/
theorem lacking_of_wires {attributes : List (String × Shape)} {entries : List (String × Value)}
    {filled : List (String × Json)} (names : Entries.keys members = Entries.keys entries)
    (wired : Entries.Aligned Wires (missingAttributes attributes entries) filled) :
    filled = (Shape.object attributes).lacking members := by
  have absent (name : String) :
      (Entries.get? entries name).isNone = (Entries.get? members name).isNone :=
    Entries.isNone_get?_eq (by rw [names])
  rw [missingAttributes, Entries.Aligned, List.forall₂_map_left_iff] at wired
  simp only [wires_null, absent] at wired
  rw [Shape.lacking, ← List.forall₂_eq_eq_eq, List.forall₂_map_right_iff]
  exact Paired.symm wired fun _ _ _ _ same => Prod.ext same.1.symm same.2

/-- An object goes out as its members, read in the slots of their names, and what it lacks. -/
theorem Reads.sent_object (read : Reads (.object members) shape value)
    (wires : Wires value sent) :
    ∃ entries kept, sent = .object (kept ++ shape.lacking members) ∧
      List.Forall₂ (ReadsMember fun name => some (shape.memberSlot name)) members entries ∧
      Entries.Aligned Wires entries kept := by
  obtain ⟨entries, parts, made⟩ := reads_members.1 read
  have names := ReadsMember.keys_eq parts
  have slots := Paired.imp parts (S := ReadsMember fun name => some (shape.memberSlot name))
    fun member _ entry _ found => by
      obtain ⟨same, slot, declared, read⟩ := found
      exact ⟨same, slot, by simp only [Shape.memberSlot_eq, declared, Option.getD_some], read⟩
  cases made with
  | object attributes =>
    obtain ⟨documents, wired, rfl⟩ := (wires_object _ _).1 wires
    obtain ⟨kept, filled, rfl, front, back⟩ := Paired.exists_append wired
    exact ⟨entries, kept, by rw [lacking_of_wires names back], slots, front⟩
  | map =>
    obtain ⟨kept, wired, rfl⟩ := (wires_map _ _ _).1 wires
    simp only [Entries.Aligned, List.forall₂_map_left_iff, wires_retypeNull] at wired
    exact ⟨entries, kept, by simp [Shape.lacking], slots, wired⟩
  | record =>
    obtain ⟨kept, wired, rfl⟩ := (wires_object _ _).1 wires
    exact ⟨entries, kept, by simp [Shape.lacking], slots, wired⟩

end Containers

/-- What is read under a shape goes out with the contents that it was read from. -/
theorem Reads.keeps {document sent : Json} {shape : Shape} {value : Value}
    (read : Reads document shape value) (wires : Wires value sent) : Keeps shape document sent := by
  induction document generalizing shape value sent with
  | null =>
    obtain rfl := (reads_null _ _).1 read
    obtain rfl := (wires_null _ _).1 wires
    exact .null shape
  | bool known =>
    obtain ⟨_, rfl⟩ := (reads_bool _ _ _).1 read
    obtain rfl := (wires_bool _ _).1 wires
    exact .bool shape known
  | number known =>
    obtain ⟨_, rfl⟩ := (reads_number _ _ _).1 read
    obtain ⟨out, exactly, rfl⟩ := (wires_number _ _).1 wires
    exact .number shape (Decimal.ofJson_of_toJson? exactly)
  | text known =>
    rcases (reads_text _ _ _).1 read with ⟨admitted, rfl⟩ | ⟨rfl, n, numeral, rfl⟩
    · obtain rfl := (wires_text _ _).1 wires
      refine .text known ?_
      rintro rfl
      simp at admitted
    · obtain ⟨out, exactly, rfl⟩ := (wires_number _ _).1 wires
      exact .numeral numeral (Decimal.ofJson_of_toJson? exactly)
  | array items ih =>
    obtain ⟨values, documents, rfl, parts, wired⟩ := read.sent_array wires
    have size : items.length = documents.length := by
      rw [← wired.length_eq, ← parts.length_eq, List.length_zipIdx]
    have each : List.Forall₂
        (fun item out => Keeps (shape.itemSlot items.length item.2) item.1 out)
        items.zipIdx documents := by
      refine Paired.trans parts wired fun item held value _ out _ read sent => ?_
      exact ih item.1 (List.fst_mem_of_mem_zipIdx held) read sent
    refine .array size fun position item out held there => ?_
    have placed : items.zipIdx[position]? = some (item, position) := by
      simp [List.getElem?_zipIdx, held]
    exact Paired.at_position each placed there
  | object members ih =>
    obtain ⟨entries, kept, rfl, parts, wired⟩ := read.sent_object wires
    have names := (ReadsMember.keys_eq parts).trans wired.keys_eq
    have each : List.Forall₂
        (fun member out => Keeps (shape.memberSlot member.1) member.2 out.2) members kept := by
      refine Paired.trans parts wired fun member held entry _ out _ read sent => ?_
      obtain ⟨_, slot, same, read⟩ := read
      obtain rfl := Option.some.inj same
      exact ih member held read sent.2
    exact .object names fun position member out held there => Paired.at_position each held there

/--
The value part of the wire form of what a document is read as keeps the contents of the document.
-/
theorem ofJson_keeps {document sent : Json} {shape : Shape} {path : Path} {value : Value}
    (converted : ofJson document shape path = .ok value) (encoded : encode value = .ok sent) :
    ∃ part, sent.member? "value" = some part ∧ Keeps shape document part := by
  obtain ⟨part, wires, rfl⟩ := encode_ok.1 encoded
  have read : Reads document shape value := reads_of_ofJson converted
  exact ⟨part, by simp [Json.member?, Entries.get?], read.keeps wires⟩

/-- A form whose members are in another order than their attributes, and that lacks two. -/
def formDocument : Json :=
  .object [("rest", .array [.text "12", .null, .bool true]), ("size", .text "1.20e1"),
    ("rows", .array [.array [.null, .text "b"], .array [], .null]),
    ("marks", .object [("z", .array []), ("a", .null)])]

/-- The shape of the form: a number, one slot for all rows, and much that is left open. -/
def formShape : Shape :=
  .object [("size", .number), ("notes", .map (.list .string)), ("rows", .tuple [.set .dynamic]),
    ("marks", .map .dynamic), ("name", .string), ("rest", .dynamic)]

/-- What the form reads as: the shapes of the sets, the marks and the rest are inferred. -/
def formValue : Value :=
  .object [("rest", .tuple [.text "12", .null .dynamic, .bool true]),
    ("size", .number ⟨false, 12, 0, by decide⟩),
    ("rows", .tuple [.set .string [.null .string, .text "b"], .set .dynamic [],
      .null (.set .dynamic)]),
    ("marks", .map (.tuple []) [("z", .tuple []), ("a", .null (.tuple []))]),
    ("notes", .null (.map (.list .string))), ("name", .null .string)]

/-- What is sent of the form: its own members first, then the ones it lacks. -/
def formSent : Json :=
  .object [("rest", .array [.text "12", .null, .bool true]), ("size", .number (.int 12)),
    ("rows", .array [.array [.null, .text "b"], .array [], .null]),
    ("marks", .object [("z", .array []), ("a", .null)]), ("notes", .null), ("name", .null)]

/-- The form is sent with its contents, the size as the number that it denotes. -/
theorem form_kept : Keeps formShape formDocument formSent := by
  have converted : ofJson formDocument formShape .root = .ok formValue := by cbv
  have encoded : encode formValue =
      .ok (.object [("type", formValue.shape.toJson), ("value", formSent)]) := by cbv
  obtain ⟨part, held, kept⟩ := ofJson_keeps converted encoded
  obtain rfl : formSent = part := Option.some.inj held
  exact kept

end Value
end TypedTree
