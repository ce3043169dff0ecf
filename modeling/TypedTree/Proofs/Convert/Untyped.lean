import TypedTree.Proofs.Convert.Gathering
import TypedTree.Proofs.Convert.Leaving
import TypedTree.Proofs.Decimal.Exactness
import TypedTree.Proofs.Shape.Pruning

/-!
# Untyped documents on their second pass

A document that is read where nothing is declared leaves without its nulls. What is left of it is
read as a value of the pruned shape and leaves unchanged: items that had equal shapes still have
equal ones, so what was a list stays a list.
-/

namespace TypedTree.Value

/-- A document leaves as another one, or is absent, when it was read under a shape. -/
def Passes (document : Json) (shape : Shape) (result : Option Json) : Prop :=
  ∃ value, Reads document shape value ∧ Leaves value result

/-- A document passes unchanged where nothing is declared, with a given shape. -/
def StableAs (document : Json) (shape : Shape) : Prop :=
  ∃ back, Reads document .dynamic back ∧ Leaves back (some document) ∧ back.shape == shape

/-- The shape of a null does not matter for its absence. -/
theorem leaves_retypeNull (shape : Shape) (value : Value) (result : Option Json) :
    Leaves (value.retypeNull shape) result ↔ Leaves value result := by
  cases value <;> simp [retypeNull]

/-- Items leave as before when their nulls take another shape. -/
theorem forall₂_leaves_retypeNull (shape : Shape) (values : List Value)
    (results : List (Option Json)) :
    List.Forall₂ Leaves (values.map (retypeNull shape)) results ↔
      List.Forall₂ Leaves values results := by
  simp only [List.forall₂_map_left_iff, leaves_retypeNull]

/-- Entries leave as before when their nulls take another shape. -/
theorem aligned_leaves_retypeNull (shape : Shape) (entries : List (String × Value))
    (results : List (String × Option Json)) :
    Entries.Aligned Leaves (entries.map fun entry => (entry.1, entry.2.retypeNull shape)) results ↔
      Entries.Aligned Leaves entries results := by
  simp only [Entries.Aligned, List.forall₂_map_left_iff, leaves_retypeNull]

/-- Untyped items leave as an array of what they leave as, as a list and as a tuple. -/
theorem leaves_inferSequence (values : List Value) (result : Option Json) :
    Leaves (inferSequence values) result ↔
      ∃ results, List.Forall₂ Leaves values results ∧
        keepArray values.length results.reduceOption = result := by
  unfold inferSequence
  split
  · simp only [leaves_list, forall₂_leaves_retypeNull, List.length_map]
  · exact leaves_tuple values result

/-- Items that are all present leave as an array of all of them. -/
theorem exists_kept {values : List Value} {documents : List Json}
    (kept : List.Forall₂ (fun value document => Leaves value (some document)) values documents) :
    ∃ results, List.Forall₂ Leaves values results ∧
      keepArray values.length results.reduceOption = some (.array documents) := by
  refine ⟨documents.map some, List.forall₂_map_right_iff.2 kept, ?_⟩
  have all : (documents.map some).reduceOption = documents := by
    simp [List.reduceOption, List.filterMap_map]
  rw [all, keepArray_eq_some, kept.length_eq]
  exact ⟨by cases documents <;> simp, rfl⟩

/-- Entries that are all present leave as an object of all of them. -/
theorem exists_kept_entries {entries : List (String × Value)} {members : List (String × Json)}
    (kept : Entries.Aligned (fun value document => Leaves value (some document)) entries members) :
    ∃ results, Entries.Aligned Leaves entries results ∧
      keepObject entries.length (keptEntries results) = some (.object members) := by
  refine ⟨members.map fun member => (member.1, some member.2),
    List.forall₂_map_right_iff.2 kept, ?_⟩
  have all : keptEntries (members.map fun member => (member.1, some member.2)) = members := by
    clear kept
    induction members with
    | nil => rfl
    | cons member rest ih => simpa [keptEntries] using ih
  rw [all, keepObject_eq_some, kept.length_eq]
  exact ⟨by cases members <;> simp, rfl⟩

/-! ## What is left, read again -/

/-- The shape of a sequence of values that are not null is that of a sequence of their shapes. -/
theorem shape_inferSequence {values : List Value}
    (present : ∀ value ∈ values, value.isNull = false) :
    (inferSequence values).shape = Shape.ofItems (values.map Value.shape) := by
  have known : values.filter (!·.isNull) = values :=
    List.filter_eq_self.2 fun value held => by simp [present value held]
  cases values with
  | nil => rfl
  | cons first rest =>
    have alike : (rest.map Value.shape).all (· == first.shape) =
        rest.all (·.shape == first.shape) := List.all_map ..
    rw [List.map_cons, Shape.ofItems, alike]
    by_cases all : rest.all (·.shape == first.shape) = true <;>
      simp [inferSequence, sharedShape?, known, all]

/-- Documents that pass unchanged pass unchanged in an array, whose shape is inferred anew. -/
theorem stableAs_array {documents : List Json} {shapes : List Shape}
    (distinct : ∀ document ∈ documents, document.WellFormed)
    (stable : List.Forall₂ StableAs documents shapes) :
    StableAs (.array documents) (Shape.ofItems shapes) := by
  obtain ⟨backs, same, parts⟩ := Paired.exists_between
    (S := fun shape back => back.shape == shape)
    (T := fun document back => Reads document .dynamic back ∧ Leaves back (some document))
    (Paired.imp stable fun _ _ _ _ stable => by
      obtain ⟨back, read, leaves, same⟩ := stable
      exact ⟨back, same, read, leaves⟩)
  have reads : List.Forall₂ (Reads · .dynamic ·) documents backs := parts.imp fun _ _ both => both.1
  have kept : List.Forall₂ (fun back document => Leaves back (some document)) backs documents :=
    (parts.imp fun _ _ both => both.2).flip
  have present (back : Value) (held : back ∈ backs) : back.isNull = false := by
    obtain ⟨_, _, leaves⟩ := Paired.exists_right kept held
    exact leaves.present
  have formed := forall_wellFormed distinct .dynamic reads
  refine ⟨inferSequence backs, (reads_sequence _ _).2 ⟨backs, reads, rfl⟩,
    (leaves_inferSequence _ _).2 (exists_kept kept), ?_⟩
  rw [shape_inferSequence present]
  refine Shape.ofItems_congr (List.forall_mem_map.2 fun back held => (formed back held).shape) ?_
  rw [List.forall₂_map_left_iff]
  exact same.flip

/-- Documents that pass unchanged pass unchanged as the members of an object. -/
theorem stableAs_object {members : List (String × Json)} {attributes : List (String × Shape)}
    (distinct : Entries.Distinct members)
    (stable : Entries.Aligned StableAs members attributes) :
    StableAs (.object members) (.object attributes) := by
  obtain ⟨backs, same, parts⟩ := Paired.exists_between
    (S := fun (entry : String × Shape) (back : String × Value) =>
      back.1 = entry.1 ∧ back.2.shape == entry.2)
    (T := fun (member : String × Json) (back : String × Value) =>
      member.1 = back.1 ∧ Reads member.2 .dynamic back.2 ∧ Leaves back.2 (some member.2))
    (Paired.imp stable fun member _ entry _ stable => by
      obtain ⟨name, back, read, leaves, same⟩ := stable
      exact ⟨(member.1, back), ⟨name, same⟩, rfl, read, leaves⟩)
  have reads : List.Forall₂ (ReadsMember fun _ => some .dynamic) members backs :=
    parts.imp fun _ _ all => ⟨all.1, .dynamic, rfl, all.2.1⟩
  have kept : Entries.Aligned (fun back document => Leaves back (some document)) backs members :=
    (parts.imp fun _ _ all => ⟨all.1.symm, all.2.2⟩ : List.Forall₂ _ members backs).flip
  refine ⟨object backs, (reads_record _ _).2 ⟨backs, reads, rfl⟩,
    (leaves_object _ _).2 (exists_kept_entries kept), ?_⟩
  have aligned : Entries.Aligned (fun a b => a == b)
      (backs.map fun back => (back.1, back.2.shape)) attributes :=
    List.forall₂_map_left_iff.2 same.flip
  have names : Entries.Distinct (backs.map fun back => (back.1, back.2.shape)) := by
    rw [Entries.Distinct, Entries.keys_map, ← ReadsMember.keys_eq reads]
    exact distinct
  rw [shape_object]
  exact (Shape.object_beq _ _).2 ⟨attributes, rfl, aligned.corresponds names⟩

/-! ## The first pass -/

/-- A result is stable with what is left of a shape, and absent where nothing is. -/
abbrev Settles (result : Option Json) (shape : Shape) : Prop :=
  Option.Rel StableAs result shape.pruned

/-- Results that are stable with an equal shape are stable. -/
theorem Settles.congr {result : Option Json} {a b : Shape} (settles : Settles result a)
    (formed : a.WellFormed) (same : a == b) : Settles result b := by
  have equal := Shape.pruned_congr formed same
  unfold Settles at settles ⊢
  generalize a.pruned = left, b.pruned = right at settles equal
  cases settles with
  | none =>
    cases equal
    exact .none
  | some stable =>
    cases equal with
    | some equal =>
      obtain ⟨back, read, leaves, same⟩ := stable
      exact .some ⟨back, read, leaves, Shape.beq_trans same equal⟩

/-- What is kept of the items of a tuple is stable with what is left of the slots. -/
theorem forall₂_settled {results : List (Option Json)} {slots : List Shape}
    (settled : List.Forall₂ Settles results slots) :
    List.Forall₂ StableAs results.reduceOption (Shape.prunedSlots slots) := by
  induction settled with
  | nil => exact .nil
  | @cons result slot _ _ first _ ih =>
    rw [reduceOption_cons, Shape.prunedSlots]
    unfold Settles at first
    generalize slot.pruned = left at first
    cases first with
    | none => exact ih
    | some stable => exact .cons stable ih

/-- What is kept of entries is stable with what is left of the attributes, under their names. -/
theorem aligned_settled {results : List (String × Option Json)}
    {attributes : List (String × Shape)} (settled : Entries.Aligned Settles results attributes) :
    Entries.Aligned StableAs (keptEntries results) (Shape.prunedAttributes attributes) := by
  induction settled with
  | nil => exact .nil
  | @cons result entry rest others first _ ih =>
    obtain ⟨name, result⟩ := result
    obtain ⟨other, shape⟩ := entry
    obtain ⟨rfl, first⟩ := first
    rw [Shape.prunedAttributes]
    unfold Settles at first
    dsimp only at first
    generalize shape.pruned = left at first
    cases first with
    | none => exact ih
    | some stable => exact .cons ⟨rfl, stable⟩ ih

/-- Documents that are all stable with one shape are stable as a list of it. -/
theorem stableAs_list {documents : List Json} {shape : Shape} (formed : shape.WellFormed)
    (distinct : ∀ document ∈ documents, document.WellFormed) (filled : documents ≠ [])
    (stable : ∀ document ∈ documents, StableAs document shape) :
    StableAs (.array documents) (.list shape) := by
  have alike : List.Forall₂ StableAs documents (documents.map fun _ => shape) :=
    List.forall₂_map_right_iff.2 (List.forall₂_same.2 stable)
  have same := stableAs_array distinct alike
  cases documents with
  | nil => exact absurd rfl filled
  | cons first rest =>
    have equal := Shape.beq_refl formed
    simpa [Shape.ofItems, equal] using same

section Inferred

variable {values : List Value} {results : List (Option Json)} {element : Shape}

/-- What is present of items that share a shape settles with the shape that they share. -/
theorem Settles.shared {value : Value} {result : Option Json}
    (formed : ∀ value ∈ values, value.WellFormed) (inferred : Infers values element)
    (held : value ∈ values) (known : value.isNull = false) (settles : Settles result value.shape) :
    Settles result element := by
  have shape := inferred.wellFormed formed
  have equal := (inferred.1 value held).resolve_left (by simp [known])
  exact settles.congr (formed value held).shape (Shape.beq_symm shape equal)

/-- The items that are kept of some that share a shape are stable with what is left of it. -/
theorem stableAs_of_infers (formed : ∀ value ∈ values, value.WellFormed)
    (inferred : Infers values element)
    (parts : List.Forall₂ (fun value result => Leaves value result ∧ Settles result value.shape)
      values results) {document : Json} (held : document ∈ results.reduceOption) :
    document.WellFormed ∧ ∃ shape, element.pruned = some shape ∧ StableAs document shape := by
  obtain ⟨value, there, leaves, settles⟩ :=
    Paired.exists_left parts (List.reduceOption_mem_iff.1 held)
  have own := settles.shared formed inferred there leaves.present
  refine ⟨leaves.wellFormed (formed value there), ?_⟩
  unfold Settles at own
  generalize element.pruned = left at own
  cases own with
  | some stable => exact ⟨_, rfl, stable⟩

/-- A list of untyped items settles with the shape that was inferred for its items. -/
theorem settles_list (formed : ∀ value ∈ values, value.WellFormed)
    (inferred : Infers values element) (present : ∃ value ∈ values, value.isNull = false)
    (parts : List.Forall₂ (fun value result => Leaves value result ∧ Settles result value.shape)
      values results) :
    Settles (keepArray values.length results.reduceOption) (.list element) := by
  have kept (document : Json) (held : document ∈ results.reduceOption) :=
    stableAs_of_infers formed inferred parts held
  obtain ⟨value, held, known⟩ := present
  obtain ⟨result, there, _, settles⟩ := Paired.exists_right parts held
  have first := settles.shared formed inferred held known
  unfold Settles at first ⊢
  rw [Shape.pruned]
  cases left : element.pruned with
  | none =>
    have lost : results.reduceOption = [] := by
      refine List.eq_nil_iff_forall_not_mem.2 fun document among => ?_
      obtain ⟨_, shape, same, _⟩ := kept document among
      cases left.symm.trans same
    have filled : values.length ≠ 0 := Nat.ne_of_gt (List.length_pos_of_mem held)
    rw [keepArray_eq_none.2 ⟨filled, lost⟩]
    exact .none
  | some inner =>
    rw [left] at first
    cases first with
    | @some document _ _ =>
      have filled := List.ne_nil_of_mem (List.reduceOption_mem_iff.2 there)
      rw [keepArray_eq_some.2 ⟨.inr filled, rfl⟩]
      refine .some (stableAs_list ((inferred.wellFormed formed).pruned left)
        (fun document among => (kept document among).1) filled fun document among => ?_)
      obtain ⟨_, shape, same, stable⟩ := kept document among
      obtain rfl := Option.some.inj (left.symm.trans same)
      exact stable

/-- What is kept of items that share a shape is read again as values that have an element shape. -/
theorem exists_backs_of_infers (formed : ∀ value ∈ values, value.WellFormed)
    (inferred : Infers values element)
    (parts : List.Forall₂ (fun value result => Leaves value result ∧ Settles result value.shape)
      values results) :
    ∃ backs, List.Forall₂ (Reads · .dynamic ·) results.reduceOption backs ∧
      List.Forall₂ (fun back document => Leaves back (some document)) backs results.reduceOption ∧
      ∀ members : List (Step × Value), members.map Prod.snd = backs →
        ∃ element, unify .dynamic members = .ok element := by
  have shape : (element.pruned.getD .dynamic).WellFormed := by
    cases left : element.pruned with
    | none => exact .dynamic
    | some inner => exact (inferred.wellFormed formed).pruned left
  have each (document : Json) (held : document ∈ results.reduceOption) :
      ∃ back, Reads document .dynamic back ∧ Leaves back (some document) ∧
        back.WellFormed ∧ element.pruned.getD .dynamic == back.shape := by
    obtain ⟨distinct, inner, left, back, read, leaves, same⟩ :=
      stableAs_of_infers formed inferred parts held
    have known := read.wellFormed distinct .dynamic
    exact ⟨back, read, leaves, known, by rw [left]; exact Shape.beq_symm known.shape same⟩
  obtain ⟨backs, found⟩ := Paired.exists_of_forall each
  refine ⟨backs, found.imp fun _ _ all => all.1, (found.imp fun _ _ all => all.2.1).flip,
    fun members steps => ?_⟩
  have known (back : Value) (held : back ∈ backs) :
      back.WellFormed ∧ element.pruned.getD .dynamic == back.shape := by
    obtain ⟨_, _, _, _, both⟩ := Paired.exists_left found held
    exact both
  subst steps
  obtain ⟨again, unified, _⟩ := exists_unify shape (fun back held => (known back held).1)
    fun back held => .inr (known back held).2
  exact ⟨again, unified⟩

end Inferred

/-- A tuple of untyped items settles with its slots. -/
theorem settles_tuple {values : List Value} {results : List (Option Json)}
    (formed : ∀ value ∈ values, value.WellFormed)
    (parts : List.Forall₂ (fun value result => Leaves value result ∧ Settles result value.shape)
      values results) :
    Settles (keepArray values.length results.reduceOption) (tuple values).shape := by
  have stable : List.Forall₂ StableAs results.reduceOption
      (Shape.prunedSlots (values.map Value.shape)) :=
    forall₂_settled (List.forall₂_map_right_iff.2
      (parts.imp fun _ _ both => both.2 : List.Forall₂ _ values results).flip)
  have distinct (document : Json) (held : document ∈ results.reduceOption) :
      document.WellFormed := by
    obtain ⟨value, there, leaves, _⟩ :=
      Paired.exists_left parts (List.reduceOption_mem_iff.1 held)
    exact leaves.wellFormed (formed value there)
  rw [Settles, shape_tuple, Shape.pruned, keepArray_remaining]
  exact rel_map (R := fun documents shapes =>
      (∀ document ∈ documents, document.WellFormed) ∧ List.Forall₂ StableAs documents shapes)
    (remaining_rel (List.length_map _).symm stable.length_eq ⟨distinct, stable⟩)
    fun _ _ both => stableAs_array both.1 both.2

/-- An object of untyped members settles with its attributes. -/
theorem settles_object {entries : List (String × Value)} {results : List (String × Option Json)}
    (distinct : Entries.Distinct entries)
    (parts : Entries.Aligned (fun value result => Settles result value.shape) entries results) :
    Settles (keepObject entries.length (keptEntries results)) (object entries).shape := by
  have stable : Entries.Aligned StableAs (keptEntries results)
      (Shape.prunedAttributes (entries.map fun entry => (entry.1, entry.2.shape))) :=
    aligned_settled (List.forall₂_map_right_iff.2
      (parts.imp fun _ _ both => ⟨both.1.symm, both.2⟩ : List.Forall₂ _ entries results).flip)
  have names : Entries.Distinct (keptEntries results) :=
    (keys_keptEntries results).nodup (by rw [← parts.keys_eq]; exact distinct)
  rw [Settles, shape_object, Shape.pruned, keepObject_remaining]
  exact rel_map (R := fun members attributes =>
      Entries.Distinct members ∧ Entries.Aligned StableAs members attributes)
    (remaining_rel (List.length_map _).symm stable.length_eq ⟨names, stable⟩)
    fun _ _ both => stableAs_object both.1 both.2

/-- Untyped items settle one by one where each of them does. -/
theorem forall₂_settles {items : List Json} {values : List Value} {results : List (Option Json)}
    (each : ∀ item ∈ items, ∀ value result, Reads item .dynamic value → Leaves value result →
      Settles result value.shape)
    (reads : List.Forall₂ (Reads · .dynamic ·) items values)
    (sent : List.Forall₂ Leaves values results) :
    List.Forall₂ (fun value result => Leaves value result ∧ Settles result value.shape)
      values results :=
  Paired.imp sent fun value held result _ leaves => by
    obtain ⟨item, there, read⟩ := Paired.exists_left reads held
    exact ⟨leaves, each item there value result read leaves⟩

/-- A document that is read where nothing is declared settles with the shape of its value. -/
theorem Reads.settles {document : Json} {value : Value} {result : Option Json}
    (read : Reads document .dynamic value) (leaves : Leaves value result)
    (distinct : document.WellFormed) : Settles result value.shape := by
  induction document generalizing value result with
  | null =>
    obtain rfl := (reads_null _ _).1 read
    obtain rfl := (leaves_null _ _).1 leaves
    exact .none
  | bool known =>
    obtain ⟨_, rfl⟩ := (reads_bool _ _ _).1 read
    obtain rfl := (leaves_bool _ _).1 leaves
    exact .some ⟨_, read, leaves, rfl⟩
  | number known =>
    obtain ⟨_, rfl⟩ := (reads_number _ _ _).1 read
    obtain ⟨sent, exactly, rfl⟩ := (leaves_number _ _).1 leaves
    refine .some ⟨_, (reads_number _ _ _).2 ⟨.inr rfl, rfl⟩, ?_, rfl⟩
    rw [Decimal.ofJson_of_toJson? exactly]
    exact leaves
  | text known =>
    obtain rfl : value = text known := by simpa using (reads_text _ _ _).1 read
    obtain rfl := (leaves_text _ _).1 leaves
    exact .some ⟨_, read, leaves, rfl⟩
  | array items ih =>
    rw [Json.wellFormed_array] at distinct
    obtain ⟨values, parts, rfl⟩ := (reads_sequence _ _).1 read
    obtain ⟨results, sent, rfl⟩ := (leaves_inferSequence _ _).1 leaves
    have formed := forall_wellFormed distinct .dynamic parts
    have settled := forall₂_settles
      (fun item held _ _ read leaves => ih item held read leaves (distinct item held)) parts sent
    rcases inferSequence_cases formed with ⟨element, _, inferred, present, same⟩ | ⟨_, same⟩
    · rw [same]
      exact settles_list formed inferred present settled
    · rw [same]
      exact settles_tuple formed settled
  | object members ih =>
    rw [Json.wellFormed_object] at distinct
    obtain ⟨entries, parts, rfl⟩ := (reads_record _ _).1 read
    obtain ⟨results, sent, rfl⟩ := (leaves_object _ _).1 leaves
    refine settles_object (by rw [Entries.Distinct, ← ReadsMember.keys_eq parts]; exact distinct.1)
      (Paired.imp sent fun entry held result _ both => ⟨both.1, ?_⟩)
    obtain ⟨member, there, _, shape, slot, read⟩ := Paired.exists_left parts held
    obtain rfl := Option.some.inj slot
    exact ih member there read both.2 (distinct.2 member there)

/--
What is left of untyped items that had an element shape is read again as values that have one,
whatever the steps to them.
-/
theorem exists_backs_of_unify {items : List Json} {values : List Value}
    {results : List (Option Json)} {members : List (Step × Value)} {element : Shape}
    (distinct : ∀ item ∈ items, item.WellFormed)
    (reads : List.Forall₂ (Reads · .dynamic ·) items values) (steps : members.map Prod.snd = values)
    (unified : unify .dynamic members = .ok element) (sent : List.Forall₂ Leaves values results) :
    ∃ backs, List.Forall₂ (Reads · .dynamic ·) results.reduceOption backs ∧
      List.Forall₂ (fun back document => Leaves back (some document)) backs results.reduceOption ∧
      ∀ members : List (Step × Value), members.map Prod.snd = backs →
        ∃ element, unify .dynamic members = .ok element := by
  have formed := forall_wellFormed distinct .dynamic reads
  subst steps
  rcases unify_ok formed unified with ⟨declared, _⟩ | ⟨_, inferred⟩
  · exact absurd rfl declared
  · exact exists_backs_of_infers formed inferred (forall₂_settles
      (fun item held _ _ read leaves => read.settles leaves (distinct item held)) reads sent)

end TypedTree.Value
