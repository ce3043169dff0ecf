import TypedTree.Command.Batch
import TypedTree.Proofs.Convert.Faults
import TypedTree.Proofs.Convert.Obstruction
import TypedTree.Proofs.Convert.Pruning
import TypedTree.Proofs.Decimal.Range

/-!
# Numbers out of range

A document that is read under a shape has no unknown value, so what can still keep it from going out
are its numbers. Every number of the document is a number of the value, and so is every text that
stands for a number; all other parts of the value go out whatever they are. So a document that was
read fails on the way out exactly when one of its numbers is out of range, in both forms in which it
may go out.
-/

namespace TypedTree

namespace Slotted

/--
A part of a document that is read as a number which no document number denotes: an integer or a
whole double beyond a word, or a numeral of such an integer, or one of no integer that no double
stands for either.
-/
inductive OutOfRange : Slotted → Prop
  | integer {known : Int} (slot lead : Option Shape) : Decimal.fitsInt64 known = false →
      OutOfRange ⟨.number (.int known), slot, lead⟩
  | double {known : Binary64} (slot lead : Option Shape) : Binary64.isWhole known.rank = true →
      Decimal.fitsInt64 known.toInt = false → OutOfRange ⟨.number (.float known), slot, lead⟩
  | numeral {text : String} {value : Int} (lead : Option Shape) :
      Decimal.read? text = some (.ofInt value) → Decimal.fitsInt64 value = false →
      OutOfRange ⟨.text text, some .number, lead⟩
  | fraction {text : String} {n : Decimal} (lead : Option Shape) : Decimal.read? text = some n →
      (∀ value, n ≠ .ofInt value) → (∀ x, n ≠ .ofBinary64 x) →
      OutOfRange ⟨.text text, some .number, lead⟩

variable {slot lead : Option Shape}

/-- A number is out of range when the decimal that it is read as does not go out. -/
theorem outOfRange_number {known : Json.Number} :
    OutOfRange ⟨.number known, slot, lead⟩ ↔ ¬ (Decimal.ofJson known).Sendable := by
  cases known with
  | int value =>
    rw [Decimal.ofJson, Decimal.sendable_ofInt, Bool.not_eq_true]
    constructor
    · intro out
      cases out with
      | integer _ _ out => exact out
    · exact .integer slot lead
  | float x =>
    rw [Decimal.ofJson, Decimal.sendable_ofBinary64, Classical.not_imp, Bool.not_eq_true]
    constructor
    · intro out
      cases out with
      | double _ _ whole out => exact ⟨whole, out⟩
    · exact fun out => .double slot lead out.1 out.2

/-- A numeral is out of range when the decimal that it denotes does not go out. -/
theorem outOfRange_text {text : String} {n : Decimal} (read : Decimal.read? text = some n) :
    OutOfRange ⟨.text text, some .number, lead⟩ ↔ ¬ n.Sendable := by
  constructor
  · intro out
    cases out with
    | numeral _ own out =>
      obtain rfl := Option.some.inj (read.symm.trans own)
      rw [Decimal.sendable_ofInt, out]
      decide
    | fraction _ own apart none =>
      obtain rfl := Option.some.inj (read.symm.trans own)
      rintro (⟨value, -, same⟩ | ⟨-, x, same⟩)
      · exact apart value same
      · exact none x same
  · intro lost
    by_cases whole : ∃ value, n = .ofInt value
    · obtain ⟨value, rfl⟩ := whole
      rw [Decimal.sendable_ofInt, Bool.not_eq_true] at lost
      exact .numeral lead read lost
    · have apart : ∀ value, n ≠ .ofInt value := fun value same => whole ⟨value, same⟩
      exact .fraction lead read apart fun x same => lost (.inr ⟨apart, x, same⟩)

end Slotted

namespace Value

open ConvertError (Cause)
open Slotted (OutOfRange placesUnder)

/-- A value as it stands in a collection, where a null has taken the shape of its place. -/
def Retyped (value part : Value) : Prop := ∃ element, part = value.retypeNull element

/-- Every value is retyped to itself. -/
theorem Retyped.refl (value : Value) : Retyped value value := by
  cases value with
  | null shape => exact ⟨shape, rfl⟩
  | _ => exact ⟨.dynamic, rfl⟩

/-- What is retyped to one shape is retyped. -/
theorem retyped_map (element : Shape) (values : List Value) :
    List.Forall₂ Retyped values (values.map (retypeNull element)) :=
  List.forall₂_map_right_iff.2 (List.forall₂_same.2 fun _ _ => ⟨element, rfl⟩)

section Parts

variable {shape : Shape} {value : Value} {values : List Value} {entries : List (String × Value)}

/-- Whatever items become, the whole is no obstruction by itself. -/
theorem FromItems.not_obstructs (made : FromItems shape values value) (cause : Cause) :
    ¬ Obstructs value cause := by
  intro obstructs
  cases made with
  | sequence =>
    unfold inferSequence at obstructs
    split at obstructs <;> cases obstructs
  | _ => cases obstructs

/-- Whatever items become, they are the members of the whole, but for the shapes of nulls. -/
theorem FromItems.members (made : FromItems shape values value) :
    List.Forall₂ Retyped values value.members := by
  have same : List.Forall₂ Retyped values values := List.forall₂_same.2 fun value _ => .refl value
  cases made with
  | @list _ element | @set _ element => exact retyped_map element values
  | tuple => exact same
  | sequence =>
    unfold inferSequence
    split
    · exact retyped_map _ values
    · exact same

/-- Whatever entries become, the whole is no obstruction by itself. -/
theorem FromEntries.not_obstructs (made : FromEntries shape entries value) (cause : Cause) :
    ¬ Obstructs value cause := by
  intro obstructs
  cases made <;> cases obstructs

/--
Whatever entries become, their values are members of the whole, but for the shapes of nulls, and
further members are nulls.
-/
theorem FromEntries.members (made : FromEntries shape entries value) :
    ∃ parts missing, List.Forall₂ Retyped (entries.map Prod.snd) parts ∧
      (∀ part ∈ missing, ∃ shape, part = null shape) ∧ value.members = parts ++ missing := by
  have same : List.Forall₂ Retyped (entries.map Prod.snd) (entries.map Prod.snd) :=
    List.forall₂_same.2 fun value _ => .refl value
  cases made with
  | object attributes =>
    refine ⟨_, (missingAttributes attributes entries).map Prod.snd, same, ?_, List.map_append⟩
    refine List.forall_mem_map.2 fun entry held => ?_
    obtain ⟨declared, -, -, rfl⟩ := (mem_missingAttributes _ _ _).1 held
    exact ⟨declared.2, rfl⟩
  | @map _ element =>
    exact ⟨_, [], retyped_map element _, List.forall_mem_nil _, by simp [Value.members]⟩
  | record => exact ⟨_, [], same, List.forall_mem_nil _, (List.append_nil _).symm⟩

end Parts

/-! ## What obstructs a value that was read -/

section Obstructions

variable {value part : Value} {cause : Cause}

/-- What is somewhere in a value is the value itself, or somewhere in a member. -/
theorem somewhere_members {holds : Value → Prop} :
    traversal.Somewhere holds value ↔
      holds value ∨ ∃ member ∈ value.members, traversal.Somewhere holds member := by
  rw [Traversal.somewhere_iff, ← map_snd_addressed]
  simp only [List.mem_map, exists_exists_and_eq_and]
  rfl

/-- Nothing obstructs a null. -/
theorem not_somewhere_null (shape : Shape) :
    ¬ traversal.Somewhere (Obstructs · cause) (null shape) := by
  rw [Traversal.somewhere_alone rfl]
  exact nofun

/-- A number obstructs unless it is sendable, and as an inexact number. -/
theorem obstructs_number {n : Decimal} :
    Obstructs (number n) cause ↔ cause = .inexactNumber ∧ ¬ n.Sendable := by
  constructor
  · intro obstructs
    cases obstructs with
    | number lost => exact ⟨rfl, lost⟩
  · rintro ⟨rfl, lost⟩
    exact .number lost

/-- A null that takes another shape obstructs as little as before, and other values stay. -/
theorem Retyped.somewhere_iff (retyped : Retyped value part) :
    traversal.Somewhere (Obstructs · cause) part ↔
      traversal.Somewhere (Obstructs · cause) value := by
  obtain ⟨element, rfl⟩ := retyped
  cases value with
  | null shape => exact iff_of_false (not_somewhere_null element) (not_somewhere_null shape)
  | _ => rfl

/--
What obstructs a value that was read is a number of the document that is out of range, and it
obstructs as an inexact number.
-/
theorem Reads.somewhere_iff {document : Json} {shape : Shape} (read : Reads document shape value)
    (cause : Cause) (lead : Option Shape) :
    traversal.Somewhere (Obstructs · cause) value ↔
      cause = .inexactNumber ∧
        Slotted.traversal.Somewhere OutOfRange ⟨document, some shape, lead⟩ := by
  induction document generalizing shape value lead with
  | null =>
    obtain rfl := (reads_null _ _).1 read
    rw [Traversal.somewhere_alone rfl, Traversal.somewhere_alone rfl]
    exact iff_of_false nofun fun out => nomatch out.2
  | bool known =>
    obtain ⟨-, rfl⟩ := (reads_bool _ _ _).1 read
    rw [Traversal.somewhere_alone rfl, Traversal.somewhere_alone rfl]
    exact iff_of_false nofun fun out => nomatch out.2
  | number known =>
    obtain ⟨-, rfl⟩ := (reads_number _ _ _).1 read
    rw [Traversal.somewhere_alone rfl, Traversal.somewhere_alone rfl, obstructs_number,
      Slotted.outOfRange_number]
  | text known =>
    rcases (reads_text _ _ _).1 read with ⟨admitted, rfl⟩ | ⟨rfl, n, numeral, rfl⟩
    · rw [Traversal.somewhere_alone rfl, Traversal.somewhere_alone rfl]
      rcases admitted with rfl | rfl <;> exact iff_of_false nofun fun out => nomatch out.2
    · rw [Traversal.somewhere_alone rfl, Traversal.somewhere_alone rfl, obstructs_number,
        Slotted.outOfRange_text numeral]
  | array items ih =>
    obtain ⟨values, parts, made⟩ := reads_array.1 read
    have through : (∃ member ∈ value.members, traversal.Somewhere (Obstructs · cause) member) ↔
        ∃ item ∈ items.zipIdx, cause = .inexactNumber ∧ Slotted.traversal.Somewhere OutOfRange
          ⟨item.1, some (shape.itemSlot items.length item.2), shape.lead? items⟩ := by
      rw [Paired.exists_iff made.members fun _ _ _ _ retyped => retyped.somewhere_iff]
      refine Paired.exists_iff parts fun item held value _ read => ?_
      exact ih item.1 (List.fst_mem_of_mem_zipIdx held) read _
    have inside : Slotted.traversal.parts ⟨.array items, some shape, lead⟩ =
        items.zipIdx.map fun item => (.index item.2,
          ⟨item.1, some (shape.itemSlot items.length item.2), shape.lead? items⟩) :=
      Slotted.parts_array items shape lead
    have own : ¬ OutOfRange ⟨.array items, some shape, lead⟩ := nofun
    rw [somewhere_members, Traversal.somewhere_iff, through, inside]
    simp only [made.not_obstructs cause, own, false_or, List.mem_map, exists_exists_and_eq_and,
      exists_and_left, and_left_comm]
  | object members ih =>
    obtain ⟨entries, read, made⟩ := reads_members.1 read
    obtain ⟨parts, missing, retyped, nulls, split⟩ := made.members
    have through : (∃ member ∈ value.members, traversal.Somewhere (Obstructs · cause) member) ↔
        ∃ member ∈ members, cause = .inexactNumber ∧ Slotted.traversal.Somewhere OutOfRange
          ⟨member.2, shape.memberSlot? member.1, shape.lead? (members.map Prod.snd)⟩ := by
      have absent : ¬ ∃ part ∈ missing, traversal.Somewhere (Obstructs · cause) part := by
        rintro ⟨part, held, own⟩
        obtain ⟨shape, rfl⟩ := nulls part held
        exact not_somewhere_null shape own
      simp only [split, List.mem_append, or_and_right, exists_or, absent, or_false]
      rw [Paired.exists_iff retyped fun _ _ _ _ retyped => retyped.somewhere_iff]
      simp only [List.mem_map, exists_exists_and_eq_and]
      refine Paired.exists_iff read fun member held entry _ found => ?_
      obtain ⟨-, slot, declared, read⟩ := found
      rw [declared]
      exact ih member held read _
    have inside : Slotted.traversal.parts ⟨.object members, some shape, lead⟩ =
        members.map fun member => (shape.memberStep member.1,
          ⟨member.2, shape.memberSlot? member.1, shape.lead? (members.map Prod.snd)⟩) :=
      Slotted.parts_object members shape lead
    have own : ¬ OutOfRange ⟨.object members, some shape, lead⟩ := nofun
    rw [somewhere_members, Traversal.somewhere_iff, through, inside]
    simp only [made.not_obstructs cause, own, false_or, List.mem_map, exists_exists_and_eq_and,
      exists_and_left, and_left_comm]

end Obstructions

/--
A document that was read fails on the way out for its numbers alone, in one form as in the other: as
an inexact number, at one and the same path. It fails exactly when some part of it is out of range
in its place.
-/
theorem accepted_fails_for_range_only {document : Json} {shape : Shape} {value : Value}
    (converted : ofJson document shape .root = .ok value) :
    (∀ error, encode value = .error error ↔ toJson? value .root = .error error) ∧
    (∀ mode error, Mode.convert mode shape document = .error error ↔
      toJson? value .root = .error error) ∧
    (∀ error, toJson? value .root = .error error → error.cause = .inexactNumber) ∧
    ((∃ error, toJson? value .root = .error error) ↔
      ∃ place ∈ placesUnder document shape, OutOfRange place.2) := by
  have read : Reads document shape value := reads_of_ofJson converted
  refine ⟨fun error => encode_eq_error, fun mode error => ?_, fun error failed => ?_, ?_⟩
  · rw [Mode.convert, converted]
    cases mode with
    | wire => exact encode_eq_error
    | roundTrip =>
      change (toJson? value .root).map _ = _ ↔ _
      cases toJson? value .root <;> simp [Except.map]
  · exact ((read.somewhere_iff error.cause none).1 (somewhere_of_error failed)).1
  · rw [exists_error_iff]
    constructor
    · rintro ⟨cause, own⟩
      exact ((read.somewhere_iff cause none).1 own).2
    · intro out
      exact ⟨.inexactNumber, (read.somewhere_iff _ none).2 ⟨rfl, out⟩⟩

/-- Integers of which the last one is just beyond a word. -/
def storeSizes : List Json := [.int (-9223372036854775808), .null, .int 9223372036854775808]

/-- A numeral with a fraction, and the integers. -/
def storeDocument : Json := .object [("share", .text "0.10"), ("sizes", .array storeSizes)]

@[inherit_doc storeDocument]
def storeShape : Shape := .object [("sizes", .set .dynamic), ("share", .number)]

/-- What the numbers read as. -/
def storeValue : Value :=
  .object [("share", .number ⟨false, 1, -1, by decide⟩),
    ("sizes", .set .number [.number (.ofInt (-9223372036854775808)), .null .number,
      .number (.ofInt 9223372036854775808)])]

/-- In both forms the last integer keeps the document from going out. -/
theorem store_fails :
    ∃ error : ConvertError, error.cause = .inexactNumber ∧
      ∀ mode, Mode.convert mode storeShape storeDocument = .error error := by
  have converted : ofJson storeDocument storeShape .root = .ok storeValue := by cbv
  obtain ⟨_, modes, cause, fails⟩ := accepted_fails_for_range_only converted
  have sizes : ([.attr "sizes"], ⟨.array storeSizes, some (.set .dynamic), none⟩) ∈
      placesUnder storeDocument storeShape :=
    Traversal.cons_mem.2 ⟨_, List.mem_of_getElem? (i := 1) (by cbv), Traversal.self_mem⟩
  have last : ([.index 2], ⟨.int 9223372036854775808, some .dynamic, some .number⟩) ∈
      Slotted.traversal.places ⟨.array storeSizes, some (.set .dynamic), none⟩ :=
    Traversal.cons_mem.2 ⟨_, List.mem_of_getElem? (i := 2) (by cbv), Traversal.self_mem⟩
  obtain ⟨error, failed⟩ := fails.2 ⟨_, Traversal.mem_trans sizes last, .integer _ _ rfl⟩
  exact ⟨error, cause error failed, fun mode => (modes mode error).2 failed⟩

end Value
end TypedTree
