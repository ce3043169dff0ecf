import Mathlib
import TypedTree.Command.Batch
import TypedTree.Proofs.Convert.Shortening

/-!
# The second pass of the round trip

What leaves a round trip passes through it unchanged, down to the order of members. The only
exception is a sequence that lost an item and is read under a tuple shape of several slots: it is
too short for the shape, and the second pass ends there.
-/

namespace TypedTree.Value

/-! ## Arrays -/

section Arrays

variable {items : List Json} {shape : Shape} {result : Json}

/-- A document that is read where nothing is declared passes unchanged once it has passed. -/
theorem stable_dynamic {document : Json} (distinct : document.WellFormed)
    (passes : Passes document .dynamic (some result)) : Stable result .dynamic := by
  obtain ⟨value, read, leaves⟩ := passes
  have settles := read.settles leaves distinct
  unfold Settles at settles
  generalize value.shape.pruned = left at settles
  cases settles with
  | some stable =>
    obtain ⟨back, read, leaves, _⟩ := stable
    exact ⟨back, read, leaves⟩

/-- A sequence that is shorter than a tuple shape of several slots does not fit it. -/
theorem fails_short {documents : List Json} {slots : List Shape} (several : 2 ≤ slots.length)
    (short : documents.length < slots.length) :
    FailsAt (.array documents) (.tuple slots) [] (shortfall documents.length slots) := by
  intro path
  have apart : broadcasts slots documents.length = false := by
    simp [broadcasts]
    omega
  have misfit : (slots.length != documents.length) = true := by simp; omega
  simp [ofJson, apart, misfit, shortfall]

/-- A list whose element shape is inferred passes unchanged once it has passed. -/
theorem stable_inferred_list (distinct : ∀ item ∈ items, item.WellFormed)
    (passes : Passes (.array items) (.list .dynamic) (some result)) :
    ∃ left, result = .array left ∧ Stable (.array left) (.list .dynamic) := by
  obtain ⟨values, inner, results, reads, unified, sent, kept⟩ := passes_list.1 passes
  obtain ⟨_, rfl⟩ := keepArray_eq_some.1 kept
  obtain ⟨backs, again, present, element⟩ :=
    exists_backs_of_unify distinct reads (map_snd_indexed _) unified sent
  obtain ⟨element, same⟩ := element (indexed backs) (map_snd_indexed _)
  exact ⟨_, rfl, stable_list again present same⟩

/-- What leaves of an array passes unchanged or is too short where it lost an item. -/
theorem array_outcome (distinct : ∀ item ∈ items, item.WellFormed) (formed : shape.WellFormed)
    (each : ∀ item ∈ items, ∀ slot, slot.WellFormed → ∀ result,
      Passes item slot (some result) → Outcome item slot result)
    (passes : Passes (.array items) shape (some result)) :
    Outcome (.array items) shape result := by
  by_cases untyped : shape = .dynamic
  · subst untyped
    exact .inl (stable_dynamic (.array distinct) passes)
  by_cases list : shape = .list .dynamic
  · subst list
    obtain ⟨left, rfl, stable⟩ := stable_inferred_list distinct passes
    exact .inl stable
  by_cases set : shape = .set .dynamic
  · subst set
    obtain ⟨left, rfl, stable⟩ := stable_inferred_list distinct (passes_set.1 passes)
    exact .inl (passes_set.2 stable)
  obtain ⟨parts, results, spreads, passed, rfl, filled⟩ := Spreads.exists_of_passes passes untyped
  have outcome := keptParts_outcome passed fun part held result passes =>
    each part.1 (spreads.mem held formed).1 part.2 (spreads.mem held formed).2 result passes
  rcases spreads.kept passed.length_eq with again | ⟨slots, rfl, size, rfl, lost⟩
  · rcases outcome with all | ⟨before, kept, after, part, steps, count, slots, split, stable, place,
      short, fails⟩
    · exact .inl (again.stable list set all)
    · rw [split] at again
      refine .inr ⟨.index before.length :: steps, count, slots,
        .inside (.item spreads place) short, again.fails (fun other held => ?_) fails⟩
      obtain ⟨value, read, _⟩ := stable other held
      exact ⟨value, read⟩
  · have fewer : results.reduceOption.length < results.length :=
      List.reduceOption_length_lt_iff.2 lost
    have total := passed.length_eq
    rw [List.length_zip, size, Nat.min_self] at total
    have some : results.reduceOption ≠ [] := filled.resolve_left fun none => by
      have empty := congrArg List.length none
      rw [List.length_zip, size, Nat.min_self, List.length_nil] at empty
      omega
    have more := List.length_pos_iff.2 some
    exact .inr ⟨[], _, slots, .here size (by omega) passed lost some,
      fails_short (by omega) (by omega)⟩

end Arrays

/-! ## Objects -/

/-- A member passes under the shape of its name. -/
def PassesMember (slot : String → Option Shape) (member : String × Json)
    (result : String × Option Json) : Prop :=
  member.1 = result.1 ∧ ∃ shape, slot member.1 = some shape ∧ Passes member.2 shape result.2

/-- A member passes unchanged under the shape of its name. -/
def StableMember (slot : String → Option Shape) (member : String × Json) : Prop :=
  ∃ shape, slot member.1 = some shape ∧ Stable member.2 shape

/-- What is left of a member is too short at a place where the member lost an item. -/
def ShortMember (slot : String → Option Shape) (members : List (String × Json))
    (kept : String × Json) (steps : List Step) (count : Nat) (slots : List Shape) : Prop :=
  ∃ part shape, (kept.1, part) ∈ members ∧ slot kept.1 = some shape ∧
    Shortened part shape steps count slots ∧ FailsAt kept.2 shape steps (shortfall count slots)

section Objects

variable {members : List (String × Json)} {slot : String → Option Shape} {result : Json}

/-- Members pass one by one when they are read and leave one by one. -/
theorem passes_members {entries : List (String × Value)} {results : List (String × Option Json)}
    (reads : List.Forall₂ (ReadsMember slot) members entries)
    (sent : Entries.Aligned Leaves entries results) :
    List.Forall₂ (PassesMember slot) members results :=
  Paired.trans reads sent fun _ _ entry _ _ _ read leaves => by
    obtain ⟨name, shape, declared, read⟩ := read
    exact ⟨name.trans leaves.1, shape, declared, entry.2, read, leaves.2⟩

/-- Either everything in a list is good, or there is a first that is not. -/
theorem exists_first {α : Type} {good bad : α → Prop} {items : List α}
    (each : ∀ item ∈ items, good item ∨ bad item) :
    (∀ item ∈ items, good item) ∨ ∃ before item after, items = before ++ item :: after ∧
      (∀ other ∈ before, good other) ∧ bad item := by
  induction items with
  | nil => exact .inl (by simp)
  | cons item rest ih =>
    obtain ⟨here, others⟩ := List.forall_mem_cons.1 each
    rcases here with good | bad
    · rcases ih others with all | ⟨before, other, after, rfl, first, bad⟩
      · exact .inl (List.forall_mem_cons.2 ⟨good, all⟩)
      · exact .inr ⟨item :: before, other, after, rfl, List.forall_mem_cons.2 ⟨good, first⟩, bad⟩
    · exact .inr ⟨[], item, rest, rfl, by simp, bad⟩

/-- What is left of members passes unchanged, or there is a first of them that is too short. -/
theorem keptEntries_outcome {results : List (String × Option Json)}
    (passes : List.Forall₂ (PassesMember slot) members results)
    (each : ∀ member ∈ members, ∀ shape, slot member.1 = some shape → ∀ result,
      Passes member.2 shape (some result) → Outcome member.2 shape result) :
    (∀ kept ∈ keptEntries results, StableMember slot kept) ∨
      ∃ before kept after, keptEntries results = before ++ kept :: after ∧
        (∀ other ∈ before, StableMember slot other) ∧
        ∃ steps count slots, ShortMember slot members kept steps count slots := by
  refine exists_first fun kept held => ?_
  obtain ⟨⟨name, part⟩, there, same, shape, declared, passed⟩ :=
    Paired.exists_left passes (mem_of_mem_keptEntries held)
  obtain rfl : name = kept.1 := same
  rcases each _ there shape declared kept.2 passed with stable | ⟨steps, count, slots, short, fails⟩
  · exact .inl ⟨shape, declared, stable⟩
  · exact .inr ⟨steps, count, slots, part, shape, there, declared, short, fails⟩

/-- Members fail at the first that is too short. -/
theorem membersOfJson_short {before : List (String × Json)} {kept : String × Json}
    {steps : List Step} {count : Nat} {slots : List Shape} (after : List (String × Json))
    (step : String → Step) (path : Path)
    (stable : ∀ other ∈ before, StableMember slot other)
    (short : ShortMember slot members kept steps count slots) :
    membersOfJson (before ++ kept :: after) step slot path =
      .error ⟨⟨path.steps ++ step kept.1 :: steps⟩, shortfall count slots⟩ := by
  obtain ⟨_, shape, _, declared, _, fails⟩ := short
  refine membersOfJson_error (fun other held => ?_) declared (fails.push path _)
  obtain ⟨shape, declared, value, read, _⟩ := stable other held
  exact ⟨shape, value, declared, read⟩

/-- An object leaves as its members do: a missing attribute leaves nothing. -/
theorem leaves_missing (attributes : List (String × Shape)) (entries : List (String × Value))
    (result : Option Json) :
    Leaves (object (entries ++ missingAttributes attributes entries)) result ↔
      ∃ results, Entries.Aligned Leaves entries results ∧
        keepObject (entries ++ missingAttributes attributes entries).length
          (keptEntries results) = result := by
  have null (entry : String × Value) (held : entry ∈ missingAttributes attributes entries) :
      ∃ shape, entry.2 = null shape := by
    obtain ⟨declared, _, _, rfl⟩ := (mem_missingAttributes _ _ _).1 held
    exact ⟨declared.2, rfl⟩
  rw [leaves_object]
  generalize missingAttributes attributes entries = missing at null
  constructor
  · rintro ⟨results, sent, rfl⟩
    have front := (List.forall₂_take_append _ _ _ sent.flip).flip
    have back := (List.forall₂_drop_append _ _ _ sent.flip).flip
    have lost : keptEntries (results.drop entries.length) = [] :=
      keptEntries_absent fun result held => by
        obtain ⟨entry, there, _, leaves⟩ := Paired.exists_left back held
        obtain ⟨shape, same⟩ := null entry there
        exact (leaves_null _ _).1 (same ▸ leaves)
    have split := keptEntries_append (results.take entries.length) (results.drop entries.length)
    rw [List.take_append_drop, lost, List.append_nil] at split
    exact ⟨_, front, by rw [split]⟩
  · rintro ⟨results, sent, rfl⟩
    have absent : Entries.Aligned Leaves missing (missing.map fun entry => (entry.1, none)) := by
      refine List.forall₂_map_right_iff.2 (List.forall₂_same.2 fun entry held => ⟨rfl, ?_⟩)
      obtain ⟨shape, same⟩ := null entry held
      simp [same]
    have lost : keptEntries (missing.map fun entry => (entry.1, none)) = [] :=
      keptEntries_absent (List.forall_mem_map.2 fun _ _ => rfl)
    refine ⟨_, List.rel_append sent absent, ?_⟩
    rw [keptEntries_append, lost, List.append_nil]

/-- An object passes unchanged when its members do, unless it lacks all of its attributes. -/
theorem stable_object {attributes : List (String × Shape)}
    (filled : members = [] → attributes = [])
    (each : ∀ member ∈ members, StableMember (Entries.get? attributes) member) :
    Stable (.object members) (.object attributes) := by
  have again (member : String × Json) (held : member ∈ members) :
      ∃ back, ReadsMember (Entries.get? attributes) member back ∧
        back.1 = member.1 ∧ Leaves back.2 (some member.2) := by
    obtain ⟨shape, declared, value, read, leaves⟩ := each member held
    exact ⟨(member.1, value), ⟨rfl, shape, declared, read⟩, rfl, leaves⟩
  obtain ⟨backs, found⟩ := Paired.exists_of_forall again
  have reads := found.imp fun _ _ both => both.1
  have kept : Entries.Aligned (fun back document => Leaves back (some document)) backs members :=
    (found.imp fun _ _ both => both.2).flip
  obtain ⟨results, sent, whole⟩ := exists_kept_entries kept
  obtain ⟨_, same⟩ := keepObject_eq_some.1 whole
  refine ⟨_, (reads_object _ _ _).2 ⟨backs, reads, rfl⟩,
    (leaves_missing _ _ _).2 ⟨results, sent, ?_⟩⟩
  rw [← Json.object.inj same, keepObject_eq_some]
  refine ⟨?_, rfl⟩
  by_cases none : members = []
  · obtain rfl : backs = [] := List.length_eq_zero_iff.1 (by rw [kept.length_eq, none]; rfl)
    exact .inl (by rw [filled none]; rfl)
  · exact .inr none

/-- A map passes unchanged when its members do and have an element shape. -/
theorem stable_map {backs : List Value} {declared element : Shape}
    (reads : List.Forall₂ (Reads · declared ·) (members.map Prod.snd) backs)
    (kept : List.Forall₂ (fun back document => Leaves back (some document)) backs
      (members.map Prod.snd))
    (unified : unify declared (keyed ((Entries.keys members).zip backs)) = .ok element) :
    Stable (.object members) (.map declared) := by
  refine ⟨_, reads_map_zip reads unified, (leaves_map _ _ _).2 (exists_kept_entries ?_)⟩
  have same : List.Forall₂ (fun document back => Leaves back (some document)) (members.map Prod.snd)
      (backs.map (retypeNull element)) := by
    rw [List.forall₂_map_right_iff]
    exact kept.flip.imp fun _ _ => (leaves_retypeNull _ _ _).2
  exact (Entries.Aligned.zip same).flip.imp fun _ _ both => ⟨both.1.symm, both.2⟩

/-- A map whose element shape is inferred passes unchanged once it has passed. -/
theorem stable_inferred_map (distinct : ∀ member ∈ members, member.2.WellFormed)
    (passes : Passes (.object members) (.map .dynamic) (some result)) :
    Stable result (.map .dynamic) := by
  obtain ⟨value, read, leaves⟩ := passes
  obtain ⟨entries, element, reads, unified, rfl⟩ := (reads_map _ _ _).1 read
  obtain ⟨results, sent, whole⟩ := (leaves_map _ _ _).1 leaves
  obtain ⟨_, rfl⟩ := keepObject_eq_some.1 whole
  rw [aligned_leaves_retypeNull] at sent
  obtain ⟨backs, again, present, element⟩ :=
    exists_backs_of_unify (List.forall_mem_map.2 distinct) (ReadsMember.values reads)
      (map_snd_keyed entries) unified sent.values
  rw [← map_snd_keptEntries] at again present
  have names : (keyed ((Entries.keys (keptEntries results)).zip backs)).map Prod.snd = backs := by
    rw [map_snd_keyed, List.map_snd_zip]
    simp [present.length_eq]
  obtain ⟨element, same⟩ := element _ names
  exact stable_map again present same

/-- What is left of declared attributes passes unchanged or is too short where it lost an item. -/
theorem attributes_outcome {attributes : List (String × Shape)}
    (formed : ∀ entry ∈ attributes, entry.2.WellFormed)
    (each : ∀ member ∈ members, ∀ shape, shape.WellFormed → ∀ result,
      Passes member.2 shape (some result) → Outcome member.2 shape result)
    (passes : Passes (.object members) (.object attributes) (some result)) :
    Outcome (.object members) (.object attributes) result := by
  obtain ⟨value, read, leaves⟩ := passes
  obtain ⟨entries, reads, rfl⟩ := (reads_object _ _ _).1 read
  obtain ⟨results, sent, whole⟩ := (leaves_missing _ _ _).1 leaves
  obtain ⟨filled, rfl⟩ := keepObject_eq_some.1 whole
  have outcome := keptEntries_outcome (passes_members reads sent) fun member held shape declared =>
    each member held shape (formed _ (Entries.mem_of_get? declared))
  rcases outcome with all | ⟨before, kept, after, split, stable, steps, count, slots, short⟩
  · refine .inl (stable_object (fun none => ?_) all)
    obtain ⟨rfl, missing⟩ := List.append_eq_nil_iff.1
      (List.length_eq_zero_iff.1 (filled.resolve_right (not_not_intro none)))
    simpa [missingAttributes, Entries.get?] using missing
  · rw [split]
    have fails (path : Path) := membersOfJson_short after .attr path stable short
    obtain ⟨part, shape, there, declared, short, _⟩ := short
    exact .inr ⟨_, count, slots, .inside (.property there declared) short,
      fun path => by simp only [ofJson, fails]⟩

/-- What is left of a map of a declared element shape does so too. -/
theorem map_outcome {element : Shape} (known : element ≠ .dynamic)
    (each : ∀ member ∈ members, ∀ result,
      Passes member.2 element (some result) → Outcome member.2 element result)
    (passes : Passes (.object members) (.map element) (some result)) :
    Outcome (.object members) (.map element) result := by
  obtain ⟨value, read, leaves⟩ := passes
  obtain ⟨entries, inner, reads, _, rfl⟩ := (reads_map _ _ _).1 read
  obtain ⟨results, sent, whole⟩ := (leaves_map _ _ _).1 leaves
  obtain ⟨_, rfl⟩ := keepObject_eq_some.1 whole
  rw [aligned_leaves_retypeNull] at sent
  have outcome := keptEntries_outcome (passes_members reads sent)
    fun member held shape declared => by
      obtain rfl := Option.some.inj declared
      exact each member held
  rcases outcome with all | ⟨before, kept, after, split, stable, steps, count, slots, short⟩
  · have each : ∀ document ∈ (keptEntries results).map Prod.snd, ∃ back,
        Reads document element back ∧ Leaves back (some document) := by
      refine List.forall_mem_map.2 fun kept held => ?_
      obtain ⟨_, declared, stable⟩ := all kept held
      obtain rfl := Option.some.inj declared
      exact stable
    obtain ⟨backs, found⟩ := Paired.exists_of_forall each
    have reads := found.imp fun _ _ both => both.1
    have kept := (found.imp fun _ _ both => both.2).flip
    exact .inl (stable_map reads kept (unify_declared known _))
  · rw [split]
    have fails (path : Path) := membersOfJson_short after .key path stable short
    obtain ⟨part, shape, there, declared, short, _⟩ := short
    obtain rfl := Option.some.inj declared
    exact .inr ⟨_, count, slots, .inside (.entry there) short,
      fun path => by simp only [ofJson, fails]⟩

/-- What leaves of an object passes unchanged or is too short where it lost an item. -/
theorem object_outcome {shape : Shape} (distinct : (Json.object members).WellFormed)
    (formed : shape.WellFormed)
    (each : ∀ member ∈ members, ∀ slot, slot.WellFormed → ∀ result,
      Passes member.2 slot (some result) → Outcome member.2 slot result)
    (passes : Passes (.object members) shape (some result)) :
    Outcome (.object members) shape result := by
  obtain ⟨value, read, _⟩ := id passes
  rcases read.object_shape with ⟨attributes, rfl⟩ | ⟨element, rfl⟩ | rfl
  · exact attributes_outcome ((Shape.wellFormed_object _).1 formed).2 each passes
  · by_cases untyped : element = .dynamic
    · subst untyped
      exact .inl (stable_inferred_map ((Json.wellFormed_object _).1 distinct).2 passes)
    · exact map_outcome untyped
        (fun member held => each member held element ((Shape.wellFormed_map _).1 formed)) passes
  · exact .inl (stable_dynamic distinct passes)

end Objects

/-! ## The fixed point -/

/-- A number leaves as a number that passes unchanged, even if it was read from a text. -/
theorem stable_number {n : Decimal} {result : Json} {shape : Shape}
    (admitted : shape = .number ∨ shape = .dynamic) (leaves : Leaves (number n) (some result)) :
    Stable result shape := by
  obtain ⟨sent, exactly, same⟩ := (leaves_number _ _).1 leaves
  obtain rfl := Option.some.inj same
  exact ⟨number n,
    (reads_number _ _ _).2 ⟨admitted, by rw [Decimal.ofJson_of_toJson? exactly]⟩, leaves⟩

/-- What leaves of a document passes unchanged or is too short where it lost an item. -/
theorem Passes.outcome {document result : Json} {shape : Shape} (distinct : document.WellFormed)
    (formed : shape.WellFormed) (passes : Passes document shape (some result)) :
    Outcome document shape result := by
  induction document generalizing shape result with
  | null =>
    obtain ⟨value, read, leaves⟩ := passes
    obtain rfl := (reads_null _ _).1 read
    simp at leaves
  | bool known =>
    obtain ⟨value, read, leaves⟩ := id passes
    obtain ⟨_, rfl⟩ := (reads_bool _ _ _).1 read
    obtain rfl := Option.some.inj ((leaves_bool _ _).1 leaves)
    exact .inl passes
  | number known =>
    obtain ⟨value, read, leaves⟩ := passes
    obtain ⟨admitted, rfl⟩ := (reads_number _ _ _).1 read
    exact .inl (stable_number admitted leaves)
  | text known =>
    obtain ⟨value, read, leaves⟩ := id passes
    rcases (reads_text _ _ _).1 read with ⟨_, rfl⟩ | ⟨declared, n, _, rfl⟩
    · obtain rfl := Option.some.inj ((leaves_text _ _).1 leaves)
      exact .inl passes
    · exact .inl (stable_number (.inl declared) leaves)
  | array items ih =>
    rw [Json.wellFormed_array] at distinct
    exact array_outcome distinct formed
      (fun item held slot formed result => ih item held (distinct item held) formed) passes
  | object members ih =>
    have inner := ((Json.wellFormed_object _).1 distinct).2
    exact object_outcome distinct formed
      (fun member held slot formed result => ih member held (inner member held) formed) passes

end TypedTree.Value

namespace TypedTree.Mode

open Value

/-- A round trip gives what a document passes as, with null for what is absent. -/
theorem convert_roundTrip_ok {shape : Shape} {document result : Json} :
    roundTrip.convert shape document = .ok result ↔
      ∃ left, Passes document shape left ∧ left.getD .null = result := by
  constructor
  · intro converted
    unfold convert at converted
    cases read : ofJson document shape .root with
    | error error => simp [read] at converted
    | ok value =>
      cases sent : value.toJson? .root with
      | error error => simp [read, sent, Except.map] at converted
      | ok left =>
        refine ⟨left, ⟨value, reads_of_ofJson read, (toJson?_ok _ _ _).1 sent⟩, ?_⟩
        simpa [read, sent, Except.map] using converted
  · rintro ⟨left, ⟨value, read, leaves⟩, rfl⟩
    simp [convert, read .root, leaves .root, Except.map]

/--
The result of a round trip passes through it unchanged, unless a sequence inside it that is read
under a tuple shape of several slots has lost an item; then the sequence does not fit.
-/
theorem roundTrip_fixed_point {shape : Shape} {document result : Json} (formed : shape.WellFormed)
    (distinct : document.WellFormed) (converted : roundTrip.convert shape document = .ok result) :
    roundTrip.convert shape result = .ok result ∨
      ∃ steps count slots, Shortened document shape steps count slots ∧
        roundTrip.convert shape result = .error ⟨⟨steps⟩, shortfall count slots⟩ := by
  obtain ⟨left, passes, rfl⟩ := convert_roundTrip_ok.1 converted
  cases left with
  | none => exact .inl (convert_roundTrip_ok.2 ⟨none, ⟨null shape, by simp, by simp⟩, rfl⟩)
  | some document =>
    rcases passes.outcome distinct formed with stable | ⟨steps, count, slots, short, fails⟩
    · exact .inl (convert_roundTrip_ok.2 ⟨some document, stable, rfl⟩)
    · refine .inr ⟨steps, count, slots, short, ?_⟩
      simp only [Option.getD_some, convert, fails .root]
      rfl

/-- Pairs of numbers, in a list. -/
def pairsShape : Shape := .object [("pairs", .list (.tuple [.number, .number]))]

/-- A pair that is missing and one that lacks its second number. -/
def pairsDocument : Json := .object [("pairs", .array [.null, .array [.int 1, .null]])]

/-- What is left of the pairs: the second is the first now, and too short. -/
def pairsLeft : Json := .object [("pairs", .array [.array [.int 1]])]

/-- The second pass ends at what was the second pair and is the first now. -/
theorem pairs_second_pass :
    pairsShape.WellFormed ∧ pairsDocument.WellFormed ∧
      roundTrip.convert pairsShape pairsDocument = .ok pairsLeft ∧
      ∃ count slots,
        Shortened pairsDocument pairsShape [.attr "pairs", .index 0] count slots ∧
        roundTrip.convert pairsShape pairsLeft =
          .error ⟨⟨[.attr "pairs", .index 0]⟩, shortfall count slots⟩ := by
  have formed : pairsShape.WellFormed := by simp [pairsShape, Entries.Distinct]
  have distinct : pairsDocument.WellFormed := by simp [pairsDocument, Entries.Distinct, Json.int]
  have converted : roundTrip.convert pairsShape pairsDocument = .ok pairsLeft := by cbv
  have second : roundTrip.convert pairsShape pairsLeft =
      .error ⟨⟨[.attr "pairs", .index 0]⟩, shortfall 1 [.number, .number]⟩ := rfl
  rcases roundTrip_fixed_point formed distinct converted
    with same | ⟨steps, count, slots, short, fails⟩
  · rw [second] at same
    cases same
  · obtain rfl : [.attr "pairs", .index 0] = steps :=
      congrArg (·.path.steps) (Except.error.inj (second.symm.trans fails))
    exact ⟨formed, distinct, converted, count, slots, short, fails⟩

end TypedTree.Mode
