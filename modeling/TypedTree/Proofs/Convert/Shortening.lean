import TypedTree.Proofs.Convert.Untyped

/-!
# Sequences that are too short on their second pass

The items of a sequence have their slots by position where a tuple shape has two slots or more. If
one of them is absent from the document that leaves, the others move up, and the shorter sequence
does not fit the shape any more. What is said here about such a place is where it is, in steps
through the document that leaves, and how the second pass fails there.
-/

namespace TypedTree.Value

/-- The items of an array, each with the shape that it is read under. -/
inductive Spreads : List Json → Shape → List (Json × Shape) → Prop
  /-- The items of a list share its element shape. -/
  | list (items : List Json) (element : Shape) :
      Spreads items (.list element) (items.map (·, element))
  /-- The elements of a set share its element shape. -/
  | set (items : List Json) (element : Shape) :
      Spreads items (.set element) (items.map (·, element))
  /-- Every item has the slot of its position. -/
  | own {items : List Json} {slots : List Shape} (size : slots.length = items.length) :
      Spreads items (.tuple slots) (items.zip slots)
  /-- The only slot is that of every item. -/
  | only {items : List Json} (slot : Shape) (more : items.length ≠ 1) :
      Spreads items (.tuple [slot]) (items.map (·, slot))

/-- An item stands behind so many others that are present when they leave. -/
def KeptAt (parts : List (Json × Shape)) (position : Nat) (part : Json × Shape) : Prop :=
  ∃ before after results, parts = before ++ part :: after ∧
    List.Forall₂ (fun part result => Passes part.1 part.2 result) before results ∧
    results.reduceOption.length = position

/-- A part of a document, with its shape, and the step to what it leaves as. -/
inductive PartAt : Json → Shape → Step → Json → Shape → Prop
  | item {items : List Json} {shape : Shape} {parts : List (Json × Shape)} {position : Nat}
      {part : Json} {slot : Shape} : Spreads items shape parts →
      KeptAt parts position (part, slot) → PartAt (.array items) shape (.index position) part slot
  | entry {members : List (String × Json)} {element : Shape} {name : String} {part : Json} :
      (name, part) ∈ members → PartAt (.object members) (.map element) (.key name) part element
  | property {members : List (String × Json)} {attributes : List (String × Shape)} {name : String}
      {part : Json} {slot : Shape} : (name, part) ∈ members →
      Entries.get? attributes name = some slot →
      PartAt (.object members) (.object attributes) (.attr name) part slot

/--
Somewhere in a document, a sequence that is read under a tuple shape of several slots loses an item
but not all of them. The steps lead to what is left of the sequence in the document that leaves;
`count` is the number of items left there.
-/
inductive Shortened : Json → Shape → List Step → Nat → List Shape → Prop
  | here {items : List Json} {slots : List Shape} {results : List (Option Json)} :
      slots.length = items.length → 2 ≤ slots.length →
      List.Forall₂ (fun part result => Passes part.1 part.2 result) (items.zip slots) results →
      none ∈ results → results.reduceOption ≠ [] →
      Shortened (.array items) (.tuple slots) [] results.reduceOption.length slots
  | inside {document part : Json} {shape slot : Shape} {step : Step} {steps : List Step}
      {count : Nat} {slots : List Shape} : PartAt document shape step part slot →
      Shortened part slot steps count slots → Shortened document shape (step :: steps) count slots

/-- Why a sequence of too few items does not fit a tuple shape. -/
def shortfall (count : Nat) (slots : List Shape) : ConvertError.Cause :=
  .typeMismatch ("sequence of " ++ toString count ++ " elements") (Shape.tuple slots).text

/-- Reading a document fails at a place inside it, from wherever it is read. -/
def FailsAt (document : Json) (shape : Shape) (steps : List Step) (cause : ConvertError.Cause) :
    Prop :=
  ∀ path : Path, ofJson document shape path = .error ⟨⟨path.steps ++ steps⟩, cause⟩

/-- A document passes unchanged. -/
abbrev Stable (document : Json) (shape : Shape) : Prop := Passes document shape (some document)

/-! ## Failing parts -/

/-- A failure behind a step, as one of what the step leads into. -/
theorem FailsAt.push {document : Json} {shape : Shape} {steps : List Step}
    {cause : ConvertError.Cause} (fails : FailsAt document shape steps cause) (path : Path)
    (step : Step) :
    ofJson document shape (path.push step) = .error ⟨⟨path.steps ++ step :: steps⟩, cause⟩ := by
  rw [fails, Path.push, List.append_assoc, List.singleton_append]

/-- Items fail at the first that fails. -/
theorem itemsOfJson_error {before after : List (Json × Shape)} {part : Json × Shape}
    {slot : Nat → Shape} {position : Nat} {path : Path} {error : ConvertError}
    (given : ∀ offset shape, ((before ++ part :: after).map Prod.snd)[offset]? = some shape →
      slot (position + offset) = shape)
    (reads : ∀ other ∈ before, ∃ value, Reads other.1 other.2 value)
    (fails : ofJson part.1 part.2 (path.push (.index (position + before.length))) = .error error) :
    itemsOfJson ((before ++ part :: after).map Prod.fst) slot position path = .error error := by
  induction before generalizing position with
  | nil =>
    have own : slot position = part.2 := given 0 part.2 (by simp)
    simp only [List.length_nil, Nat.add_zero] at fails
    simp only [List.nil_append, List.map_cons, itemsOfJson, own, fails]
  | cons first rest ih =>
    have own : slot position = first.2 := given 0 first.2 (by simp)
    obtain ⟨⟨value, read⟩, reads⟩ := List.forall_mem_cons.1 reads
    have others : itemsOfJson ((rest ++ part :: after).map Prod.fst) slot (position + 1) path =
        .error error := by
      refine ih (fun offset shape found => ?_) reads ?_
      · rw [Nat.add_assoc, Nat.add_comm 1]
        exact given (offset + 1) shape (by simpa using found)
      · rw [Nat.add_assoc, Nat.add_comm 1]
        exact fails
    simp only [List.cons_append, List.map_cons, itemsOfJson, own, read _, others]

/-- Members fail at the first that fails. -/
theorem membersOfJson_error {before after : List (String × Json)} {name : String} {part : Json}
    {slot : String → Option Shape} {shape : Shape} {step : String → Step} {path : Path}
    {error : ConvertError}
    (reads : ∀ other ∈ before, ∃ shape value, slot other.1 = some shape ∧
      Reads other.2 shape value)
    (given : slot name = some shape)
    (fails : ofJson part shape (path.push (step name)) = .error error) :
    membersOfJson (before ++ (name, part) :: after) step slot path = .error error := by
  induction before with
  | nil => simp only [List.nil_append, membersOfJson, given, fails]
  | cons first rest ih =>
    obtain ⟨⟨own, value, declared, read⟩, reads⟩ := List.forall_mem_cons.1 reads
    simp only [List.cons_append, membersOfJson, declared, read _, ih reads]

/-! ## Arrays -/

section Collections

variable {items : List Json} {backs : List Value} {declared element : Shape}

/-- A list passes as its items do, one by one, if they have an element shape. -/
theorem passes_list {result : Option Json} :
    Passes (.array items) (.list declared) result ↔
      ∃ values element results, List.Forall₂ (Reads · declared ·) items values ∧
        unify declared (indexed values) = .ok element ∧ List.Forall₂ Leaves values results ∧
        keepArray values.length results.reduceOption = result := by
  constructor
  · rintro ⟨_, read, leaves⟩
    obtain ⟨values, element, reads, unified, rfl⟩ := (reads_list _ _ _).1 read
    obtain ⟨results, sent, kept⟩ := (leaves_list _ _ _).1 leaves
    rw [forall₂_leaves_retypeNull] at sent
    rw [List.length_map] at kept
    exact ⟨values, element, results, reads, unified, sent, kept⟩
  · rintro ⟨values, element, results, reads, unified, sent, kept⟩
    refine ⟨_, (reads_list _ _ _).2 ⟨values, element, reads, unified, rfl⟩,
      (leaves_list _ _ _).2 ⟨results, (forall₂_leaves_retypeNull _ _ _).2 sent, ?_⟩⟩
    rw [List.length_map, kept]

/-- A list passes unchanged when its items do and have an element shape. -/
theorem stable_list (reads : List.Forall₂ (Reads · declared ·) items backs)
    (kept : List.Forall₂ (fun back item => Leaves back (some item)) backs items)
    (unified : unify declared (indexed backs) = .ok element) :
    Stable (.array items) (.list declared) := by
  obtain ⟨results, sent, whole⟩ := exists_kept kept
  exact passes_list.2 ⟨backs, element, results, reads, unified, sent, whole⟩

/-- A set passes as a list does. -/
theorem passes_set {result : Option Json} :
    Passes (.array items) (.set declared) result ↔
      Passes (.array items) (.list declared) result := by
  constructor
  · rintro ⟨_, read, leaves⟩
    obtain ⟨values, element, reads, unified, rfl⟩ := (reads_set _ _ _).1 read
    exact ⟨_, (reads_list _ _ _).2 ⟨values, element, reads, unified, rfl⟩,
      (leaves_list _ _ _).2 ((leaves_set _ _ _).1 leaves)⟩
  · rintro ⟨_, read, leaves⟩
    obtain ⟨values, element, reads, unified, rfl⟩ := (reads_list _ _ _).1 read
    exact ⟨_, (reads_set _ _ _).2 ⟨values, element, reads, unified, rfl⟩,
      (leaves_set _ _ _).2 ((leaves_list _ _ _).1 leaves)⟩

end Collections

namespace Spreads

variable {items : List Json} {shape : Shape} {parts : List (Json × Shape)}

/-- The items are spread in their order. -/
theorem map_fst (spreads : Spreads items shape parts) : parts.map Prod.fst = items := by
  cases spreads with
  | list | set | only => simp [Function.comp_def]
  | own size => exact List.map_fst_zip (Nat.le_of_eq size.symm)

/-- An item and its shape are parts of the array and of the shape of the array. -/
theorem mem {part : Json × Shape} (spreads : Spreads items shape parts) (held : part ∈ parts)
    (formed : shape.WellFormed) : part.1 ∈ items ∧ part.2.WellFormed := by
  cases spreads with
  | list element =>
    obtain ⟨item, there, rfl⟩ := List.mem_map.1 held
    exact ⟨there, (Shape.wellFormed_list _).1 formed⟩
  | set element =>
    obtain ⟨item, there, rfl⟩ := List.mem_map.1 held
    exact ⟨there, (Shape.wellFormed_set _).1 formed⟩
  | own size =>
    exact ⟨(List.of_mem_zip held).1, (Shape.wellFormed_tuple _).1 formed _ (List.of_mem_zip held).2⟩
  | only slot more =>
    obtain ⟨item, there, rfl⟩ := List.mem_map.1 held
    exact ⟨there, (Shape.wellFormed_tuple _).1 formed _ (by simp)⟩

/-- An array fails at the first item that fails. -/
theorem fails {before after : List (Json × Shape)} {part : Json × Shape} {steps : List Step}
    {cause : ConvertError.Cause} (spreads : Spreads items shape (before ++ part :: after))
    (reads : ∀ other ∈ before, ∃ value, Reads other.1 other.2 value)
    (fails : FailsAt part.1 part.2 steps cause) :
    FailsAt (.array items) shape (.index before.length :: steps) cause := by
  intro path
  have converted (slot : Nat → Shape)
      (given : ∀ offset shape, ((before ++ part :: after).map Prod.snd)[offset]? = some shape →
        slot offset = shape) :
      itemsOfJson items slot 0 path =
        .error ⟨⟨path.steps ++ .index before.length :: steps⟩, cause⟩ := by
    rw [← spreads.map_fst]
    refine itemsOfJson_error (by simpa using given) reads ?_
    rw [Nat.zero_add]
    exact fails.push path _
  generalize before ++ part :: after = parts at spreads converted
  cases spreads with
  | list element =>
    have failed := converted (fun _ => element) (by simp)
    simp only [ofJson, failed]
  | set element =>
    have failed := converted (fun _ => element) (by simp)
    simp only [ofJson, failed]
  | @own slots size =>
    have apart : broadcasts slots items.length = false := by simp [broadcasts, size]
    have failed := converted (slotAt slots items.length) fun offset shape found => by
      rw [List.map_snd_zip (Nat.le_of_eq size)] at found
      simp [slotAt, apart, found]
    simp [ofJson, apart, size, failed]
  | only slot more =>
    have single : broadcasts [slot] items.length = true := by simp [broadcasts, more]
    have failed := converted (slotAt [slot] items.length) (by simp [slotAt, single])
    simp [ofJson, single, failed]

/-- An array passes unchanged when its items do, unless its element shape is inferred. -/
theorem stable (spreads : Spreads items shape parts) (list : shape ≠ .list .dynamic)
    (set : shape ≠ .set .dynamic) (each : ∀ part ∈ parts, Stable part.1 part.2) :
    Stable (.array items) shape := by
  obtain ⟨backs, found⟩ := Paired.exists_of_forall each
  have kept : List.Forall₂ (fun back item => Leaves back (some item)) backs items := by
    rw [← spreads.map_fst, List.forall₂_map_right_iff]
    exact (found.imp fun _ _ both => both.2).flip
  have reads := found.imp fun _ _ both => both.1
  cases spreads with
  | list element =>
    rw [List.forall₂_map_left_iff] at reads
    exact stable_list reads kept (unify_declared (fun same => list (by rw [same])) _)
  | set element =>
    rw [List.forall₂_map_left_iff] at reads
    exact passes_set.2 (stable_list reads kept (unify_declared (fun same => set (by rw [same])) _))
  | own size =>
    exact ⟨tuple backs, (reads_tuple _ _ _).2 ⟨backs, rfl, .inl ⟨size, reads⟩⟩,
      (leaves_tuple _ _).2 (exists_kept kept)⟩
  | only slot more =>
    rw [List.forall₂_map_left_iff] at reads
    exact ⟨tuple backs, (reads_tuple _ _ _).2 ⟨backs, rfl, .inr ⟨slot, rfl, more, reads⟩⟩,
      (leaves_tuple _ _).2 (exists_kept kept)⟩

/-- Items that are read one by one and leave as an array pass one by one. -/
theorem passes_parts {values : List Value} {results : List (Option Json)} {result : Json}
    (reads : List.Forall₂ (fun part value => Reads part.1 part.2 value) parts values)
    (sent : List.Forall₂ Leaves values results)
    (kept : keepArray values.length results.reduceOption = some result) :
    List.Forall₂ (fun part result => Passes part.1 part.2 result) parts results ∧
      result = .array results.reduceOption ∧ (parts = [] ∨ results.reduceOption ≠ []) := by
  obtain ⟨filled, rfl⟩ := keepArray_eq_some.1 kept
  refine ⟨Paired.trans reads sent fun _ _ value _ _ _ read leaves => ⟨value, read, leaves⟩, rfl, ?_⟩
  exact filled.imp_left fun none => List.length_eq_zero_iff.1 (reads.length_eq.trans none)

/-- An array that is read under a shape other than `dynamic` leaves as what its items leave as. -/
theorem exists_of_passes {result : Json} (passes : Passes (.array items) shape (some result))
    (declared : shape ≠ .dynamic) :
    ∃ parts results, Spreads items shape parts ∧
      List.Forall₂ (fun part result => Passes part.1 part.2 result) parts results ∧
      result = .array results.reduceOption ∧ (parts = [] ∨ results.reduceOption ≠ []) := by
  obtain ⟨value, read, leaves⟩ := id passes
  rcases read.array_shape with ⟨element, rfl⟩ | ⟨element, rfl⟩ | ⟨slots, rfl⟩ | rfl
  · obtain ⟨values, _, results, reads, _, sent, kept⟩ := passes_list.1 passes
    exact ⟨_, results, .list items element,
      passes_parts (List.forall₂_map_left_iff.2 reads) sent kept⟩
  · obtain ⟨values, _, results, reads, _, sent, kept⟩ := passes_list.1 (passes_set.1 passes)
    exact ⟨_, results, .set items element,
      passes_parts (List.forall₂_map_left_iff.2 reads) sent kept⟩
  · obtain ⟨values, rfl, ⟨size, reads⟩ | ⟨slot, rfl, more, reads⟩⟩ := (reads_tuple _ _ _).1 read
    · obtain ⟨results, sent, kept⟩ := (leaves_tuple _ _).1 leaves
      exact ⟨_, results, .own size, passes_parts reads sent kept⟩
    · obtain ⟨results, sent, kept⟩ := (leaves_tuple _ _).1 leaves
      exact ⟨_, results, .only slot more,
        passes_parts (List.forall₂_map_left_iff.2 reads) sent kept⟩
  · exact absurd rfl declared

end Spreads

/-- What is left of items, each with its shape. -/
def keptParts (parts : List (Json × Shape)) (results : List (Option Json)) : List (Json × Shape) :=
  (parts.zip results).flatMap fun part => part.2.toList.map fun result => (result, part.1.2)

/-- What is left of items that share a shape shares it. -/
theorem keptParts_map {items : List Json} {shape : Shape} {results : List (Option Json)}
    (size : items.length = results.length) :
    keptParts (items.map (·, shape)) results = results.reduceOption.map (·, shape) := by
  induction items generalizing results with
  | nil =>
    obtain rfl := List.length_eq_zero_iff.1 size.symm
    rfl
  | cons item rest ih =>
    cases results with
    | nil => cases size
    | cons result results =>
      rw [reduceOption_cons, List.map_append, ← ih (Nat.succ.inj size)]
      rfl

/-- Where nothing is lost, what is left stands in the same slots. -/
theorem keptParts_zip {items : List Json} {slots : List Shape} {results : List (Option Json)}
    (size : slots.length = items.length) (same : items.length = results.length)
    (kept : none ∉ results) :
    results.reduceOption.length = slots.length ∧
      keptParts (items.zip slots) results = results.reduceOption.zip slots := by
  induction results generalizing items slots with
  | nil =>
    obtain rfl := List.length_eq_zero_iff.1 same
    obtain rfl := List.length_eq_zero_iff.1 size
    exact ⟨rfl, rfl⟩
  | cons result results ih =>
    obtain ⟨here, others⟩ := not_or.1 (List.mem_cons.not.1 kept)
    obtain ⟨document, rfl⟩ := Option.ne_none_iff_exists'.1 (Ne.symm here)
    obtain ⟨item, rest, rfl⟩ := List.exists_cons_of_length_eq_add_one same
    obtain ⟨slot, more, rfl⟩ := List.exists_cons_of_length_eq_add_one size
    obtain ⟨again, zipped⟩ := ih (Nat.succ.inj size) (Nat.succ.inj same) others
    rw [List.reduceOption_cons_of_some]
    refine ⟨congrArg Nat.succ again, ?_⟩
    rw [List.zip_cons_cons, List.zip_cons_cons, ← zipped]
    rfl

/-- What is left of the items of an array spreads again, unless an item of several slots is lost. -/
theorem Spreads.kept {items : List Json} {shape : Shape} {parts : List (Json × Shape)}
    {results : List (Option Json)} (spreads : Spreads items shape parts)
    (size : parts.length = results.length) :
    Spreads results.reduceOption shape (keptParts parts results) ∨
      ∃ slots, shape = .tuple slots ∧ slots.length = items.length ∧ parts = items.zip slots ∧
        none ∈ results := by
  cases spreads with
  | list element =>
    rw [keptParts_map (by simpa using size)]
    exact .inl (.list _ element)
  | set element =>
    rw [keptParts_map (by simpa using size)]
    exact .inl (.set _ element)
  | @own slots own =>
    by_cases lost : none ∈ results
    · exact .inr ⟨slots, rfl, own, rfl, lost⟩
    · obtain ⟨again, same⟩ := keptParts_zip own (by simpa [own] using size) lost
      rw [same]
      exact .inl (.own again.symm)
  | only slot more =>
    left
    rw [keptParts_map (by simpa using size)]
    by_cases one : results.reduceOption.length = 1
    · -- a single item has the only slot for its own
      obtain ⟨item, same⟩ := List.length_eq_one_iff.1 one
      rw [same]
      have own : Spreads [item] (.tuple [slot]) ([item].zip [slot]) := .own rfl
      exact own
    · exact .only slot one

/-- What leaves passes unchanged, or is too short at a place where it lost an item. -/
def Outcome (document : Json) (shape : Shape) (result : Json) : Prop :=
  Stable result shape ∨ ∃ steps count slots, Shortened document shape steps count slots ∧
    FailsAt result shape steps (shortfall count slots)

/-- What is left of items passes unchanged, or there is a first of them that is too short. -/
theorem keptParts_outcome {parts : List (Json × Shape)} {results : List (Option Json)}
    (passes : List.Forall₂ (fun part result => Passes part.1 part.2 result) parts results)
    (each : ∀ part ∈ parts, ∀ result, Passes part.1 part.2 (some result) →
      Outcome part.1 part.2 result) :
    (∀ kept ∈ keptParts parts results, Stable kept.1 kept.2) ∨
      ∃ before kept after part steps count slots,
        keptParts parts results = before ++ kept :: after ∧
        (∀ other ∈ before, Stable other.1 other.2) ∧ KeptAt parts before.length (part, kept.2) ∧
        Shortened part kept.2 steps count slots ∧
        FailsAt kept.1 kept.2 steps (shortfall count slots) := by
  induction passes with
  | nil => exact .inl (by simp [keptParts])
  | @cons part result parts results first _ ih =>
    obtain ⟨own, others⟩ := List.forall_mem_cons.1 each
    cases result with
    | none =>
      rcases ih others with all | ⟨before, kept, after, source, steps, count, slots, split, stable,
        ⟨front, back, sent, same, passes, size⟩, fails⟩
      · exact .inl all
      · exact .inr ⟨before, kept, after, source, steps, count, slots, split, stable,
          ⟨part :: front, back, none :: sent, by rw [same]; rfl, .cons first passes, size⟩, fails⟩
    | some document =>
      rcases own document first with here | ⟨steps, count, slots, short, fails⟩
      · rcases ih others with all | ⟨before, kept, after, source, steps, count, slots, split,
          stable, ⟨front, back, sent, same, passes, size⟩, fails⟩
        · exact .inl (List.forall_mem_cons.2 ⟨here, all⟩)
        · refine .inr ⟨(document, part.2) :: before, kept, after, source, steps, count, slots,
            ?_, List.forall_mem_cons.2 ⟨here, stable⟩, ?_, fails⟩
          · rw [List.cons_append, ← split]
            rfl
          · exact ⟨part :: front, back, some document :: sent, by rw [same]; rfl,
              .cons first passes, by simp [size]⟩
      · exact .inr ⟨[], (document, part.2), keptParts parts results, part.1, steps, count, slots,
          rfl, by simp, ⟨[], parts, [], rfl, .nil, rfl⟩, short, fails⟩

end TypedTree.Value
