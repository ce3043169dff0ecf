import TypedTree.Proofs.Convert.Leaving
import TypedTree.Proofs.Convert.Rearrangement
import TypedTree.Proofs.Shape.Reading

/-!
# Equal values go out alike

Equality lets the elements of sets and the entries of tables stand in any order, while the
conversions take them as they are stored. Even so equal values have wire forms and plain documents
together or not at all, and these differ in the order of members and of set elements alone. Both
conversions write a container from what they write of its members; `Writing` states what they have
in common, and one induction on values serves both.
-/

namespace TypedTree

namespace Shape.Arranges

variable {α β : Type} {shape : Shape} {items others : List α}

/-- What items lead to can be put in the order of the items. -/
theorem exists_moved {R : α → β → Prop} {results : List β} (order : shape.Arranges items others)
    (paired : List.Forall₂ R items results) :
    ∃ moved, List.Forall₂ R others moved ∧ shape.Arranges results moved := by
  cases shape with
  | set element =>
    obtain ⟨moved, placed, back⟩ := List.perm_comp_forall₂ (List.Perm.symm order) paired
    exact ⟨moved, placed, back.symm⟩
  | _ =>
    obtain rfl : items = others := order
    exact ⟨results, paired, rfl⟩

/-- What is left of results keeps their order, as far as the shape minds it. -/
theorem reduceOption {results moved : List (Option α)} (order : shape.Arranges results moved) :
    shape.Arranges results.reduceOption moved.reduceOption := by
  cases shape with
  | set element => exact List.Perm.filterMap id order
  | _ => exact congrArg List.reduceOption order

end Shape.Arranges

namespace Value

/-- Whether a plain document would show anything of a value. -/
def isPresent (value : Value) : Bool :=
  match toJson? value .root with
  | .ok none => false
  | _ => true

/--
Two documents of a value differ in the order of the members of objects and of the items of arrays
that stand for sets alone, at every depth. Of the members of a container those are in the documents
that are written.
-/
inductive WrittenAlike (isWritten : Value → Bool) : Value → Json → Json → Prop
  | same (value : Value) (document : Json) : WrittenAlike isWritten value document document
  | array {value : Value} {items : List Value} {pairs : List (Json × Json)} {moved : List Json} :
      value.items? = some items →
      List.Forall₂ (fun item pair => WrittenAlike isWritten item pair.1 pair.2)
        (items.filter isWritten) pairs →
      value.shape.Arranges (pairs.map Prod.snd) moved →
      WrittenAlike isWritten value (.array (pairs.map Prod.fst)) (.array moved)
  | object {value : Value} {entries : List (String × Value)}
      {pairs : List ((String × Json) × (String × Json))} {moved : List (String × Json)} :
      value.entries? = some entries →
      List.Forall₂ (fun entry pair => entry.1 = pair.1.1 ∧ entry.1 = pair.2.1)
        (entries.filter fun entry => isWritten entry.2) pairs →
      List.Forall₂ (fun entry pair => WrittenAlike isWritten entry.2 pair.1.2 pair.2.2)
        (entries.filter fun entry => isWritten entry.2) pairs →
      (pairs.map Prod.snd).Perm moved →
      WrittenAlike isWritten value (.object (pairs.map Prod.fst)) (.object moved)

/-- The container of what was kept of some members, if a container stands for so many. -/
def made {β : Type} (stands : Nat → Nat → Bool) (make : List β → Json) (total : Nat)
    (kept : List β) : Option Json :=
  if stands total kept.length then some (make kept) else none

/-- What is written of an entry stands under its name. -/
def Named (writes : Value → Option Json → Prop) (entry : String × Value)
    (result : Option (String × Json)) : Prop :=
  ∃ own, writes entry.2 own ∧ own.map (fun document => (entry.1, document)) = result

/--
A conversion of values to documents that writes a container from what it writes of the members, in
their order. It may leave values out.
-/
structure Writing where
  /-- What is written of a value; `none` if it is left out. -/
  Writes : Value → Option Json → Prop
  /-- Whether a value that can be written is not left out. -/
  isWritten : Value → Bool
  /-- Whether a container is written that has so many members of which so many are written. -/
  stands : Nat → Nat → Bool
  isSome_eq {value : Value} {result : Option Json} : Writes value result →
    result.isSome = isWritten value
  single {value other : Value} {result : Option Json} : value.items? = none →
    value.entries? = none → Same value other → Writes value result → Writes other result
  array {value : Value} {items : List Value} (result : Option Json) : value.items? = some items →
    (Writes value result ↔ ∃ results, List.Forall₂ Writes items results ∧
      made stands .array items.length results.reduceOption = result)
  object {value : Value} {entries : List (String × Value)} (result : Option Json) :
    value.entries? = some entries →
    (Writes value result ↔ ∃ results, List.Forall₂ (Named Writes) entries results ∧
      made stands .object entries.length results.reduceOption = result)

/-- Containers of equally many members stand together. -/
theorem rel_made {β : Type} {related : Json → Json → Prop} {stands : Nat → Nat → Bool}
    {make : List β → Json} {total other : Nat} {kept moved : List β} (members : total = other)
    (size : kept.length = moved.length) (alike : related (make kept) (make moved)) :
    Option.Rel related (made stands make total kept) (made stands make other moved) := by
  rw [made, made, members, size]
  split
  · exact .some alike
  · exact .none

/--
Results for the members of a list lead to results for the related members of another one, and those
that are not left out pair up.
-/
theorem exists_pairs {α β : Type} {same : α → α → Prop} {writes : α → Option β → Prop}
    (isWritten : α → Bool) (alike : α → β → β → Prop) {as bs : List α} {results : List (Option β)}
    (paired : List.Forall₂ same as bs) (written : List.Forall₂ writes as results)
    (step : ∀ a ∈ as, ∀ b result, same a b → writes a result →
      ∃ again, writes b again ∧ Option.Rel (alike a) result again)
    (shown : ∀ a ∈ as, ∀ result, writes a result → result.isSome = isWritten a) :
    ∃ again pairs, List.Forall₂ writes bs again ∧
      List.Forall₂ (fun a pair => alike a pair.1 pair.2) (as.filter isWritten) pairs ∧
      results.reduceOption = pairs.map Prod.fst ∧ again.reduceOption = pairs.map Prod.snd := by
  induction paired generalizing results with
  | nil =>
    cases written
    exact ⟨[], [], .nil, .nil, rfl, rfl⟩
  | @cons a b as bs here _ ih =>
    obtain _ | @⟨_, result, _, results, own, written⟩ := written
    obtain ⟨first, steps⟩ := List.forall_mem_cons.1 step
    obtain ⟨visible, visibles⟩ := List.forall_mem_cons.1 shown
    obtain ⟨next, ownNext, rel⟩ := first b result here own
    obtain ⟨again, pairs, writtenAgain, alikes, left, right⟩ := ih written steps visibles
    have kept := visible result own
    -- a member is left out on both sides or on neither
    cases rel with
    | none =>
      refine ⟨none :: again, pairs, .cons ownNext writtenAgain, ?_, ?_, ?_⟩
      · rwa [List.filter_cons_of_neg (by simp [← kept])]
      · simpa using left
      · simpa using right
    | @some document other same =>
      refine ⟨some other :: again, (document, other) :: pairs, .cons ownNext writtenAgain, ?_, ?_,
        ?_⟩
      · rw [List.filter_cons_of_pos (by simp [← kept])]
        exact .cons same alikes
      · simpa using left
      · simpa using right

/-- The same values have the same items, in an order that their shape takes for the same. -/
theorem Same.items {a b : Value} {items : List Value} (same : Same a b)
    (found : a.items? = some items) :
    ∃ others arranged, b.items? = some others ∧ List.Forall₂ Same items arranged ∧
      a.shape.Arranges arranged others := by
  cases a with
  | list element own =>
    obtain rfl := Option.some.inj found
    obtain ⟨_, others, rfl, _, parts⟩ := (list_same _ _ _).1 same
    exact ⟨others, others, rfl, parts, rfl⟩
  | tuple own =>
    obtain rfl := Option.some.inj found
    obtain ⟨others, rfl, parts⟩ := (tuple_same _ _).1 same
    exact ⟨others, others, rfl, parts, rfl⟩
  | set element own =>
    obtain rfl := Option.some.inj found
    obtain ⟨_, others, rfl, _, arranged, parts, order⟩ := (set_same _ _ _).1 same
    exact ⟨others, arranged, rfl, parts, order⟩
  | _ => cases found

/-- The same values have the same entries, in some order. -/
theorem Same.entries {a b : Value} {entries : List (String × Value)} (formed : a.WellFormed)
    (same : Same a b) (found : a.entries? = some entries) :
    ∃ table arranged, b.entries? = some table ∧ Entries.Aligned Same entries arranged ∧
      arranged.Perm table := by
  cases a with
  | map element own =>
    obtain rfl := Option.some.inj found
    obtain ⟨_, table, rfl, _, matching⟩ := (map_same _ _ _).1 same
    obtain ⟨arranged, aligned, order⟩ := matching.exists_aligned ((wellFormed_map _ _).1 formed).2.1
    exact ⟨table, arranged, rfl, aligned, order⟩
  | object own =>
    obtain rfl := Option.some.inj found
    obtain ⟨table, rfl, matching⟩ := (object_same _ _).1 same
    obtain ⟨arranged, aligned, order⟩ := matching.exists_aligned ((wellFormed_object _).1 formed).1
    exact ⟨table, arranged, rfl, aligned, order⟩
  | _ => cases found

namespace Writing

variable (writing : Writing) {a b : Value}

/-- What a conversion makes of a value, it makes of every value that is the same, up to order. -/
def Carries (a b : Value) : Prop :=
  ∀ result, writing.Writes a result →
    ∃ again, writing.Writes b again ∧ Option.Rel (WrittenAlike writing.isWritten a) result again

/-- Sequences go out alike if their items do. -/
theorem carries_items {items : List Value} (found : a.items? = some items) (same : Same a b)
    (each : ∀ item ∈ items, ∀ other, Same item other → writing.Carries item other) :
    writing.Carries a b := by
  intro result written
  obtain ⟨results, parts, rfl⟩ := (writing.array result found).1 written
  obtain ⟨others, arranged, there, pairing, order⟩ := same.items found
  obtain ⟨again, pairs, partsAgain, alike, left, right⟩ := exists_pairs writing.isWritten
    (WrittenAlike writing.isWritten) pairing parts
    (fun item held other result same => each item held other same result)
    fun item _ _ own => writing.isSome_eq own
  -- the results stand as the matching arranged the items, and are moved to where the others stand
  obtain ⟨moved, partsMoved, turned⟩ := order.exists_moved partsAgain
  have kept := turned.reduceOption
  rw [right] at kept
  refine ⟨_, (writing.array _ there).2 ⟨moved, partsMoved, rfl⟩, ?_⟩
  rw [left]
  refine rel_made (pairing.length_eq.trans order.perm.length_eq) ?_ (.array found alike kept)
  rw [← kept.perm.length_eq, List.length_map, List.length_map]

/-- Two documents of an entry stand under its name and differ as those of its value may. -/
def NamedAlike (entry : String × Value) (first second : String × Json) : Prop :=
  (entry.1 = first.1 ∧ entry.1 = second.1) ∧
    WrittenAlike writing.isWritten entry.2 first.2 second.2

/-- What is made of an entry is made of every entry of the name whose value is the same. -/
theorem named_carries {entry other : String × Value} {result : Option (String × Json)}
    (same : entry.1 = other.1) (carried : writing.Carries entry.2 other.2)
    (named : Named writing.Writes entry result) :
    ∃ again, Named writing.Writes other again ∧
      Option.Rel (writing.NamedAlike entry) result again := by
  obtain ⟨own, written, rfl⟩ := named
  obtain ⟨next, writtenNext, rel⟩ := carried own written
  exact ⟨_, ⟨next, writtenNext, rfl⟩, rel_map rel fun _ _ alike => ⟨⟨rfl, same⟩, alike⟩⟩

/-- Tables go out alike if the values under their names do. -/
theorem carries_entries {entries : List (String × Value)} (formed : a.WellFormed)
    (found : a.entries? = some entries) (same : Same a b)
    (each : ∀ entry ∈ entries, ∀ other, Same entry.2 other → writing.Carries entry.2 other) :
    writing.Carries a b := by
  intro result written
  obtain ⟨results, parts, rfl⟩ := (writing.object result found).1 written
  obtain ⟨table, arranged, there, pairing, order⟩ := same.entries formed found
  have shown : ∀ entry ∈ entries, ∀ result, Named writing.Writes entry result →
      result.isSome = writing.isWritten entry.2 := by
    rintro entry - _ ⟨own, written, rfl⟩
    rw [Option.isSome_map, writing.isSome_eq written]
  obtain ⟨again, pairs, partsAgain, alike, left, right⟩ := exists_pairs
    (fun entry => writing.isWritten entry.2) writing.NamedAlike pairing parts
    (fun entry held other _ both => writing.named_carries both.1 (each entry held other.2 both.2))
    shown
  obtain ⟨moved, partsMoved, turned⟩ := List.perm_comp_forall₂ order.symm partsAgain
  have kept : (pairs.map Prod.snd).Perm moved.reduceOption := by
    rw [← right]
    exact List.Perm.filterMap id turned.symm
  refine ⟨_, (writing.object _ there).2 ⟨moved, partsMoved, rfl⟩, ?_⟩
  rw [left]
  refine rel_made (pairing.length_eq.trans order.length_eq) ?_
    (.object found (alike.imp fun _ _ both => both.1) (alike.imp fun _ _ both => both.2) kept)
  rw [← kept.length_eq, List.length_map, List.length_map]

/-- The same values go out alike. -/
theorem carries (formed : a.WellFormed) (same : Same a b) : writing.Carries a b := by
  induction a using members_induction generalizing b with
  | step a ih =>
    cases items : a.items? with
    | some own =>
      refine writing.carries_items items same fun item held other alike => ?_
      rw [← members_of_items? items] at held
      exact ih item held (formed.member held) alike
    | none =>
      cases entries : a.entries? with
      | some own =>
        refine writing.carries_entries formed entries same fun entry held other alike => ?_
        have inside : entry.2 ∈ a.members := by
          rw [members_of_entries? entries]
          exact List.mem_map_of_mem held
        exact ih entry.2 inside (formed.member inside) alike
      | none =>
        refine fun result written => ⟨result, writing.single items entries same written, ?_⟩
        cases result with
        | none => exact .none
        | some document => exact .some (.same a document)

end Writing

/-! ## Plain documents -/

/-- What was kept of entries is what is left of their named results. -/
theorem keptEntries_eq (results : List (String × Option Json)) :
    keptEntries results =
      (results.map fun result =>
        result.2.map fun document => (result.1, document)).reduceOption := by
  induction results with
  | nil => rfl
  | cons result rest ih =>
    obtain ⟨name, document⟩ := result
    rw [List.map_cons, reduceOption_cons, ← ih]
    cases document <;> rfl

/-- The results of entries, with their names beside them or with their names on them. -/
theorem named_iff {writes : Value → Option Json → Prop} {entries : List (String × Value)}
    (makes : List (String × Json) → Prop) :
    (∃ results, Entries.Aligned writes entries results ∧ makes (keptEntries results)) ↔
      ∃ results, List.Forall₂ (Named writes) entries results ∧ makes results.reduceOption := by
  have named : Named writes = fun entry result => ∃ own : String × Option Json,
      (entry.1 = own.1 ∧ writes entry.2 own.2) ∧
        own.2.map (fun document => (own.1, document)) = result := by
    funext entry result
    simp [Named, and_assoc]
  rw [named, Paired.exists_map_iff fun results => makes results.reduceOption]
  simp only [keptEntries_eq]

/-- A plain document shows a value if it is not left out. -/
theorem Leaves.isSome_eq {value : Value} {result : Option Json} (leaves : Leaves value result) :
    result.isSome = isPresent value := by
  rw [isPresent, leaves .root]
  cases result <;> rfl

/-- Plain documents are written from those of the members; nulls and what holds nothing are left
out. -/
def Writing.plain : Writing where
  Writes := Leaves
  isWritten := isPresent
  stands total kept := total == 0 || kept != 0
  isSome_eq := Leaves.isSome_eq
  single {value other result} items entries same leaves := by
    cases value with
    | null | unknown | text | bool | number =>
      cases same
      exact leaves
    | _ => simp [items?, entries?] at items entries
  array {value items} result found := by
    have kept (results : List Json) : made (fun total kept => total == 0 || kept != 0) .array
        items.length results = keepArray items.length results := by
      cases results <;> simp [made, keepArray]
    simp only [kept, leaves_items found]
  object {value entries} result found := by
    have kept (members : List (String × Json)) : made (fun total kept => total == 0 || kept != 0)
        .object entries.length members = keepObject entries.length members := by
      cases members <;> simp [made, keepObject]
    simp only [kept, leaves_entries found, named_iff (keepObject entries.length · = result)]

/-! ## Wire forms -/

/-- Results that are all present are what is left of them. -/
theorem exists_some_iff {α β : Type} {R : α → β → Prop} {as : List α} (makes : List β → Prop) :
    (∃ results, List.Forall₂ (fun a result => ∃ b, R a b ∧ some b = result) as results ∧
        makes results.reduceOption) ↔
      ∃ bs, List.Forall₂ R as bs ∧ makes bs := by
  have kept (bs : List β) : (bs.map some).reduceOption = bs := by simp [List.reduceOption]
  simp only [Paired.exists_map_iff fun results => makes results.reduceOption, kept]

/-- Wire forms are written from those of all members. -/
def Writing.wire : Writing where
  Writes value result := ∃ document, Wires value document ∧ some document = result
  isWritten _ := true
  stands _ _ := true
  isSome_eq := by
    rintro value _ ⟨document, -, rfl⟩
    rfl
  single {value other result} items entries same wires := by
    cases value with
    | null | unknown | text | bool | number =>
      cases same
      exact wires
    | _ => simp [items?, entries?] at items entries
  array {value items} result found := by
    rw [exists_some_iff (made (fun _ _ => true) .array items.length · = result)]
    simp [made, wires_items found]
  object {value entries} result found := by
    have named :
        Named (fun value result => ∃ document, Wires value document ∧ some document = result) =
          fun entry result => ∃ member : String × Json,
            (entry.1 = member.1 ∧ Wires entry.2 member.2) ∧ some member = result := by
      funext entry result
      simp [Named, and_assoc]
    rw [named, exists_some_iff (made (fun _ _ => true) .object entries.length · = result)]
    simp [made, wires_entries found, Entries.Aligned]

/-! ## Both conversions -/

/-- Conversions have related results when each of them has one where the other has one. -/
theorem rel_toOption {ε α : Type} {related : α → α → Prop} {first second : Except ε α}
    (along : ∀ result, first = .ok result → ∃ again, second = .ok again ∧ related result again)
    (back : ∀ again, second = .ok again → ∃ result, first = .ok result) :
    Option.Rel related first.toOption second.toOption := by
  cases first with
  | ok result =>
    obtain ⟨again, rfl, alike⟩ := along result rfl
    exact .some alike
  | error fault =>
    cases second with
    | ok again => exact absurd (back again rfl) (by simp)
    | error other => exact .none

/--
Equal values go out alike. They have wire forms together or not at all, and so it is with plain
documents, which are absent together too. The shapes on the wire are equal as documents, and what is
written of the values differs in the order of the members of objects and of the elements of sets
alone.
-/
theorem equal_values_go_out_alike {a b : Value} (left : a.WellFormed) (right : b.WellFormed)
    (equal : a == b) :
    Option.Rel (fun sent again => ∃ shape other part moved,
        sent = .object [("type", shape), ("value", part)] ∧
        again = .object [("type", other), ("value", moved)] ∧
        Json.Same shape other ∧ WrittenAlike (fun _ => true) a part moved)
      (encode a).toOption (encode b).toOption ∧
    ∀ path, Option.Rel (Option.Rel (WrittenAlike isPresent a)) (toJson? a path).toOption
      (toJson? b path).toOption := by
  have same : Same a b := (beq_iff_same left right).1 equal
  have turned : Same b a := same.symm left right
  constructor
  · refine rel_toOption (fun sent written => ?_) fun again written => ?_
    · obtain ⟨part, wires, rfl⟩ := encode_ok.1 written
      obtain ⟨_, ⟨moved, wiresMoved, rfl⟩, alike⟩ :=
        Writing.wire.carries left same _ ⟨part, wires, rfl⟩
      cases alike with
      | some alike =>
        exact ⟨_, encode_ok.2 ⟨moved, wiresMoved, rfl⟩, _, _, part, moved, rfl, rfl,
          Shape.toJson_same_of_beq same.shape, alike⟩
    · obtain ⟨moved, wires, rfl⟩ := encode_ok.1 written
      obtain ⟨_, ⟨part, wiresPart, -⟩, -⟩ :=
        Writing.wire.carries right turned _ ⟨moved, wires, rfl⟩
      exact ⟨_, encode_ok.2 ⟨part, wiresPart, rfl⟩⟩
  · refine fun path => rel_toOption (fun result written => ?_) fun again written => ?_
    · obtain ⟨again, leaves, alike⟩ :=
        Writing.plain.carries left same _ ((toJson?_ok _ _ _).1 written)
      exact ⟨again, leaves path, alike⟩
    · obtain ⟨result, leaves, -⟩ :=
        Writing.plain.carries right turned _ ((toJson?_ok _ _ _).1 written)
      exact ⟨result, leaves path⟩

/-- A round of two stops, at one of which a name is null, and with a note that is null. -/
def round : Value :=
  .object [("note", null .string),
    ("stops", set (.set .dynamic) [set .dynamic [null .string, text "a", bool true],
      set .dynamic [text "b"]])]

/-- The round with its entries, its stops and the things at one of them in another order. -/
def roundTurned : Value :=
  .object [("stops", set (.set .dynamic) [set .dynamic [text "b"],
      set .dynamic [bool true, text "a", null .string]]), ("note", null .string)]

/-- The plain documents of the round in both orders, each without the nulls. -/
theorem round_goes_out_alike :
    toJson? round .root = .ok (some (.object [("stops",
      .array [.array [.text "a", .bool true], .array [.text "b"]])])) ∧
    toJson? roundTurned .root = .ok (some (.object [("stops",
      .array [.array [.text "b"], .array [.bool true, .text "a"]])])) ∧
    WrittenAlike isPresent round
      (.object [("stops", .array [.array [.text "a", .bool true], .array [.text "b"]])])
      (.object [("stops", .array [.array [.text "b"], .array [.bool true, .text "a"]])]) := by
  refine ⟨rfl, rfl, ?_⟩
  have left : round.WellFormed := by simp [round, Entries.Distinct]
  have right : roundTurned.WellFormed := by simp [roundTurned, Entries.Distinct]
  have equal : round == roundTurned := by decide
  obtain ⟨-, alike⟩ := equal_values_go_out_alike left right equal
  cases alike .root with
  | some shown => cases shown with
    | some written => exact written

end Value
end TypedTree
