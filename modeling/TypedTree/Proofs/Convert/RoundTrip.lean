import TypedTree.Proofs.Convert.Leaving
import TypedTree.Proofs.Convert.Static
import TypedTree.Proofs.Value.Weight

/-!
# The exact domain of the round trip

A value without `dynamic` in its shape that leaves as a document is read back from it under its own
shape as an equal value exactly when nothing was lost on the way: no collection but an object has a
member that is absent from documents, and an attribute that is absent is null itself. What is left
out weighs something, and reading puts at most a null in its place, so a loss shows in the weight of
what is read back, wherever the comparison of sets might look for it.
-/

namespace TypedTree.Value

/-- Nothing inside a value is lost when it leaves, except for nulls that are attributes. -/
def Faithful (value : Value) : Prop :=
  ∀ part, Inside part value → ∀ member ∈ part.members, Leaves member none →
    member.isNull = true ∧ ∃ entries, part = object entries

/-- A value is faithful when its own members are not lost and are faithful themselves. -/
theorem faithful_iff (value : Value) :
    Faithful value ↔
      (∀ member ∈ value.members, Leaves member none →
        member.isNull = true ∧ ∃ entries, value = object entries) ∧
      ∀ member ∈ value.members, Faithful member := by
  constructor
  · intro faithful
    exact ⟨faithful value .here, fun member held part inside => faithful part (.within held inside)⟩
  · rintro ⟨own, members⟩ part inside
    cases inside with
    | here => exact own
    | within held inside => exact members _ held part inside

/-- The members of a faithful value are faithful. -/
theorem Faithful.member {value member : Value} (faithful : Faithful value)
    (held : member ∈ value.members) : Faithful member :=
  ((faithful_iff value).1 faithful).2 member held

/-- A faithful value that is not an object keeps all of its members. -/
theorem Faithful.kept {value member : Value} (faithful : Faithful value)
    (apart : ∀ entries, value ≠ object entries) (held : member ∈ value.members) :
    ¬ Leaves member none := by
  intro absent
  obtain ⟨_, entries, same⟩ := faithful value .here member held absent
  exact apart entries same

/-- A value without members is faithful. -/
theorem faithful_of_members_nil {value : Value} (empty : value.members = []) : Faithful value := by
  rw [faithful_iff, empty]
  exact ⟨by simp, by simp⟩

/-- What leaves without a loss is kept one by one. -/
theorem forall₂_kept {items : List Value} {results : List (Option Json)}
    (parts : List.Forall₂ Leaves items results) (kept : ∀ item ∈ items, ¬ Leaves item none) :
    List.Forall₂ (fun item document => Leaves item (some document)) items
      results.reduceOption := by
  induction parts with
  | nil => exact .nil
  | @cons item result _ _ first _ ih =>
    obtain ⟨here, others⟩ := List.forall_mem_cons.1 kept
    cases result with
    | none => exact absurd first here
    | some document =>
      rw [List.reduceOption_cons_of_some]
      exact .cons first (ih others)

/--
A value that leaves as a document, to be read under a shape that equals its own and in which nothing
is `dynamic`.
-/
structure Outbound (value : Value) (document : Json) (other : Shape) : Prop where
  formed : value.WellFormed
  conforms : value.conforms = true
  static : value.shape.hasDynamic = false
  leaves : Leaves value (some document)
  same : value.shape == other

section Outbound

variable {element other : Shape} {value : Value} {items : List Value}
  {entries : List (String × Value)} {document : Json}

/-- A value that is to be read back can be taken apart under the shape that it is read under. -/
theorem Outbound.fixed (sent : Outbound value document other) : Static value other :=
  ⟨sent.formed, sent.conforms, sent.static, sent.same⟩

/-- A value that leaves is to be read back under every shape that it can be taken apart under. -/
theorem Static.outbound (fixed : Static value other) (leaves : Leaves value (some document)) :
    Outbound value document other :=
  ⟨fixed.formed, fixed.conforms, fixed.static, leaves, fixed.same⟩

/-- A list leaves as an array of what its items leave as. -/
theorem Outbound.list (sent : Outbound (list element items) document other) :
    ∃ inner results, other = .list inner ∧ document = .array results.reduceOption ∧
      inner ≠ .dynamic ∧ element == inner ∧ List.Forall₂ Leaves items results ∧
      ∀ item ∈ items, ∀ document, Leaves item (some document) → Outbound item document inner := by
  obtain ⟨inner, rfl, known, equal, each⟩ := sent.fixed.list
  obtain ⟨results, parts, kept⟩ := (leaves_list _ _ _).1 sent.leaves
  obtain ⟨_, rfl⟩ := keepArray_eq_some.1 kept
  exact ⟨inner, results, rfl, rfl, known, equal, parts,
    fun item held _ leaves => (each item held).outbound leaves⟩

/-- A set leaves as an array of what its elements leave as. -/
theorem Outbound.set (sent : Outbound (set element items) document other) :
    ∃ inner results, other = .set inner ∧ document = .array results.reduceOption ∧
      inner ≠ .dynamic ∧ element == inner ∧ List.Forall₂ Leaves items results ∧
      ∀ item ∈ items, ∀ document, Leaves item (some document) → Outbound item document inner := by
  obtain ⟨inner, rfl, known, equal, each⟩ := sent.fixed.set
  obtain ⟨results, parts, kept⟩ := (leaves_set _ _ _).1 sent.leaves
  obtain ⟨_, rfl⟩ := keepArray_eq_some.1 kept
  exact ⟨inner, results, rfl, rfl, known, equal, parts,
    fun item held _ leaves => (each item held).outbound leaves⟩

/-- A map leaves as an object of the entries that are present. -/
theorem Outbound.map (sent : Outbound (map element entries) document other) :
    ∃ inner results, other = .map inner ∧ document = .object (keptEntries results) ∧
      inner ≠ .dynamic ∧ element == inner ∧ Entries.Aligned Leaves entries results ∧
      ∀ entry ∈ entries, ∀ document, Leaves entry.2 (some document) →
        Outbound entry.2 document inner := by
  obtain ⟨inner, rfl, known, equal, each⟩ := sent.fixed.map
  obtain ⟨results, parts, kept⟩ := (leaves_map _ _ _).1 sent.leaves
  obtain ⟨_, rfl⟩ := keepObject_eq_some.1 kept
  exact ⟨inner, results, rfl, rfl, known, equal, parts,
    fun entry held _ leaves => (each entry held).outbound leaves⟩

/-- A tuple leaves as an array of what its items leave as, unless all of them are absent. -/
theorem Outbound.tuple (sent : Outbound (tuple items) document other) :
    ∃ slots results, other = .tuple slots ∧ document = .array results.reduceOption ∧
      List.Forall₂ Leaves items results ∧ (items.length = 0 ∨ results.reduceOption ≠ []) ∧
      List.Forall₂ Static items slots := by
  obtain ⟨slots, rfl, fixed⟩ := sent.fixed.tuple
  obtain ⟨results, parts, kept⟩ := (leaves_tuple _ _).1 sent.leaves
  obtain ⟨present, rfl⟩ := keepArray_eq_some.1 kept
  exact ⟨slots, results, rfl, rfl, parts, present, fixed⟩

/-- An object leaves as an object of the entries that are present. -/
theorem Outbound.object (sent : Outbound (object entries) document other) :
    ∃ attributes results, other = .object attributes ∧ document = .object (keptEntries results) ∧
      Entries.Aligned Leaves entries results ∧
      (Entries.keys entries).Perm (Entries.keys attributes) ∧
      ∀ entry ∈ entries, ∀ shape, Entries.get? attributes entry.1 = some shape →
        Static entry.2 shape := by
  obtain ⟨attributes, rfl, order, each⟩ := sent.fixed.object
  obtain ⟨results, parts, kept⟩ := (leaves_object _ _).1 sent.leaves
  obtain ⟨_, rfl⟩ := keepObject_eq_some.1 kept
  exact ⟨attributes, results, rfl, rfl, parts, order, each⟩

end Outbound

/-- A faithful value is read back from its document under every shape that equals its own. -/
theorem Faithful.readsBack {value : Value} {document : Json} {other : Shape}
    (faithful : Faithful value) (sent : Outbound value document other) :
    ReadsBack value document other := by
  induction value generalizing document other with
  | null shape => simpa using sent.leaves
  | unknown shape => exact absurd sent.leaves (leaves_unknown _ _)
  | text known =>
    obtain rfl := (Shape.string_beq _).1 sent.same
    obtain rfl : document = .text known := by simpa using sent.leaves
    exact ⟨_, by simp, .text known⟩
  | bool known =>
    obtain rfl := (Shape.bool_beq _).1 sent.same
    obtain rfl : document = .bool known := by simpa using sent.leaves
    exact ⟨_, by simp, .bool known⟩
  | number known =>
    obtain rfl := (Shape.number_beq _).1 sent.same
    obtain ⟨number, exactly, equal⟩ := (leaves_number _ _).1 sent.leaves
    obtain rfl := Option.some.inj equal
    exact ⟨_, (reads_number _ _ _).2 ⟨.inl rfl, rfl⟩,
      by simp [Decimal.ofJson_of_toJson? exactly]⟩
  | list element items ih =>
    obtain ⟨inner, results, rfl, rfl, known, equal, parts, each⟩ := sent.list
    have kept := forall₂_kept parts fun item held => faithful.kept (by simp) held
    obtain ⟨backs, reads, same⟩ :=
      exists_backs <| Paired.imp kept fun item held document _ leaves =>
        ih item held (faithful.member held) (each item held document leaves)
    exact ⟨_, (reads_list _ _ _).2 ⟨backs, inner, reads, unify_declared known _, rfl⟩,
      .list equal same⟩
  | set element items ih =>
    obtain ⟨inner, results, rfl, rfl, known, equal, parts, each⟩ := sent.set
    have kept := forall₂_kept parts fun item held => faithful.kept (by simp) held
    obtain ⟨backs, reads, same⟩ :=
      exists_backs <| Paired.imp kept fun item held document _ leaves =>
        ih item held (faithful.member held) (each item held document leaves)
    exact ⟨_, (reads_set _ _ _).2 ⟨backs, inner, reads, unify_declared known _, rfl⟩,
      .set equal same (.refl _)⟩
  | map element entries ih =>
    have distinct := ((wellFormed_map _ _).1 sent.formed).2.1
    obtain ⟨inner, results, rfl, rfl, known, equal, parts, each⟩ := sent.map
    have kept := forall₂_kept parts.values fun item held => faithful.kept (by simp) held
    rw [← map_snd_keptEntries] at kept
    have names : Entries.keys (keptEntries results) = Entries.keys entries := by
      refine (parts.keys_eq ▸ keys_keptEntries results).eq_of_length ?_
      simpa using kept.length_eq.symm
    have back : ∀ value ∈ entries.map Prod.snd, ∀ document, Leaves value (some document) →
        ReadsBack value document inner :=
      List.forall_mem_map.2 fun entry held document leaves =>
        ih entry held (faithful.member (List.mem_map_of_mem held)) (each entry held document leaves)
    obtain ⟨backs, reads, same⟩ :=
      exists_backs (Paired.imp kept fun value held document _ => back value held document)
    have aligned := Entries.Aligned.zip same
    rw [← names] at aligned
    exact ⟨_, reads_map_zip reads (unify_declared known _),
      (map_same _ _ _).2 ⟨_, _, rfl, equal, aligned.corresponds distinct⟩⟩
  | tuple items ih =>
    obtain ⟨slots, results, rfl, rfl, parts, _, fixed⟩ := sent.tuple
    have kept := forall₂_kept parts fun item held => faithful.kept (by simp) held
    refine readsBack_tuple (fixed.length_eq.symm.trans kept.length_eq) ?_
    exact Paired.zip kept fixed fun item held _ _ _ _ leaves fixed =>
      ih item held (faithful.member held) (fixed.outbound leaves)
  | object entries ih =>
    have formed := ((wellFormed_object _).1 sent.formed).1
    obtain ⟨attributes, results, rfl, rfl, parts, order, each⟩ := sent.object
    have distinct : Entries.Distinct results := by
      simpa only [Entries.Distinct, ← parts.keys_eq] using formed
    refine readsBack_object formed ((keys_keptEntries results).nodup distinct) order
      (fun name held => ?_) fun name value shape found slot => ?_
    · have among := (keys_keptEntries results).subset held
      rw [← parts.keys_eq] at among
      exact order.mem_iff.1 among
    · obtain ⟨result, kept, leaves⟩ := parts.get? found
      rw [get?_keptEntries distinct kept]
      have held := Entries.mem_of_get? found
      have member : value ∈ (Value.object entries).members :=
        List.mem_map_of_mem (f := Prod.snd) held
      have fixed := each _ held shape slot
      cases result with
      | none =>
        cases value with
        | null declared => exact readsBack_null fixed.same
        | _ => exact absurd (faithful _ .here _ member leaves).1 Bool.false_ne_true
      | some document => exact ih _ held (faithful.member member) (fixed.outbound leaves)

/-- A value that keeps all of its members, which are faithful, is faithful. -/
theorem faithful_of_kept {value : Value}
    (kept : ∀ member ∈ value.members, ¬ Leaves member none ∧ Faithful member) : Faithful value :=
  (faithful_iff value).2 ⟨fun member held absent => absurd absent (kept member held).1,
    fun member held => (kept member held).2⟩

/-- What is read from kept members weighs less than all members when one of them was lost. -/
theorem sum_weight_kept {items values : List Value} {results : List (Option Json)} {inner : Shape}
    (parts : List.Forall₂ Leaves items results)
    (reads : List.Forall₂ (Reads · inner ·) results.reduceOption values)
    (each : ∀ item ∈ items, ∀ document back, Leaves item (some document) →
      Reads document inner back → Outweighs Faithful item back) :
    (values.map weight).sum ≤ (items.map weight).sum ∧
      ((values.map weight).sum = (items.map weight).sum →
        ∀ item ∈ items, ¬ Leaves item none ∧ Faithful item) := by
  induction parts generalizing values with
  | nil =>
    cases reads
    simp
  | @cons item result items results leaves _ ih =>
    obtain ⟨here, others⟩ := List.forall_mem_cons.1 each
    rw [List.map_cons, List.sum_cons, List.forall_mem_cons]
    cases result with
    | none =>
      rw [List.reduceOption_cons_of_none] at reads
      have rest := (ih reads others).1
      have positive := item.weight_pos
      exact ⟨by omega, fun balanced => by omega⟩
    | some document =>
      rw [List.reduceOption_cons_of_some] at reads
      obtain _ | ⟨first, reads⟩ := reads
      obtain ⟨lighter, balance⟩ := here document _ leaves first
      obtain ⟨rest, restBalance⟩ := ih reads others
      rw [List.map_cons, List.sum_cons]
      refine ⟨by omega, fun balanced => ⟨⟨fun absent => ?_, ?_⟩, ?_⟩⟩
      · cases absent.unique leaves
      · exact balance (by omega)
      · exact restBalance (by omega)

/-- A list, set or map that weighs as much when it is read back has lost nothing. -/
theorem weight_collection {value back : Value} {values : List Value}
    {results : List (Option Json)} {inner element : Shape}
    (parts : List.Forall₂ Leaves value.members results)
    (reads : List.Forall₂ (Reads · inner ·) results.reduceOption values)
    (holds : back.members = values.map (Value.retypeNull element))
    (each : ∀ member ∈ value.members, ∀ document back, Leaves member (some document) →
      Reads document inner back → Outweighs Faithful member back) :
    Outweighs Faithful value back := by
  obtain ⟨lighter, balance⟩ := sum_weight_kept parts reads each
  have weights : (back.members.map weight).sum = (values.map weight).sum := by
    simp [holds, Function.comp_def]
  have before := weight_eq value
  have after := weight_eq back
  refine ⟨by omega, fun balanced => ?_⟩
  exact faithful_of_kept (balance (by omega))

/-- A value that is absent from documents and weighs no more than a null is one. -/
theorem Leaves.isNull_of_weight {value : Value} (absent : Leaves value none)
    (light : value.weight = 1) : value.isNull = true := by
  rcases absent.isNull_or_members with null | ⟨member, held⟩
  · exact null
  · have positive := member.weight_pos
    have part := List.single_le_sum (fun _ _ => Nat.zero_le _) _
      (List.mem_map_of_mem (f := weight) held)
    rw [weight_eq] at light
    omega

/-- A tuple that is read back has kept all of its items. -/
theorem weight_tuple {items : List Value} {results : List (Option Json)} {slots : List Shape}
    {back : Value} (parts : List.Forall₂ Leaves items results)
    (sent : items.length = 0 ∨ results.reduceOption ≠ [])
    (fixed : List.Forall₂ Static items slots)
    (read : Reads (.array results.reduceOption) (.tuple slots) back)
    (each : ∀ item ∈ items, ∀ document slot back, Outbound item document slot →
      Reads document slot back → Outweighs Faithful item back) :
    Outweighs Faithful (tuple items) back := by
  obtain ⟨values, rfl, ⟨size, reads⟩ | ⟨slot, rfl, more, reads⟩⟩ := (reads_tuple _ _ _).1 read
  · have whole : results.reduceOption.length = results.length := by
      rw [← size, ← fixed.length_eq, parts.length_eq]
    have kept : ∀ item ∈ items, ¬ Leaves item none := by
      intro item held absent
      obtain ⟨result, there, leaves⟩ := Paired.exists_right parts held
      have present := List.reduceOption_length_eq_iff.1 whole result there
      cases absent.unique leaves
      cases present
    have paired := Paired.zip (forall₂_kept parts kept) fixed
      (T := fun item pair => Outbound item pair.1 pair.2)
      fun _ _ _ _ _ _ leaves fixed => fixed.outbound leaves
    have weights := Paired.trans paired reads fun item held _ _ value _ sent read =>
      each item held _ _ value sent read
    obtain ⟨lighter, balance⟩ := sum_weight_le weights
    have before : (tuple items).weight = (items.map weight).sum + 1 := weight_eq _
    have after : (tuple values).weight = (values.map weight).sum + 1 := weight_eq _
    refine ⟨by omega, fun balanced => ?_⟩
    have faithful := balance (by omega)
    exact faithful_of_kept fun item held => ⟨kept item held, faithful item held⟩
  · -- one slot is one item, and a tuple that lost its only item is absent
    have one : items.length = 1 := fixed.length_eq
    have bound := List.reduceOption_length_le results
    rw [← parts.length_eq, one] at bound
    have lost : results.reduceOption = [] := List.length_eq_zero_iff.1 (by omega)
    rcases sent with empty | present
    · omega
    · exact absurd lost present

/-- A faithful value that is null if it is absent from documents. -/
def NullOrKept (value : Value) : Prop :=
  (Leaves value none → value.isNull = true) ∧ Faithful value

/-- An object that weighs as much when it is read back has lost nulls at most. -/
theorem weight_object {entries : List (String × Value)} {results : List (String × Option Json)}
    {attributes : List (String × Shape)} {back : Value} (formed : (object entries).WellFormed)
    (parts : Entries.Aligned Leaves entries results)
    (order : (Entries.keys entries).Perm (Entries.keys attributes))
    (read : Reads (.object (keptEntries results)) (.object attributes) back)
    (each : ∀ entry ∈ entries, ∀ document shape back, Leaves entry.2 (some document) →
      Entries.get? attributes entry.1 = some shape → Reads document shape back →
      Outweighs Faithful entry.2 back) : Outweighs Faithful (object entries) back := by
  rw [wellFormed_object] at formed
  have distinct : Entries.Distinct results := by
    simpa only [Entries.Distinct, ← parts.keys_eq] using formed.1
  obtain ⟨backs, rfl, names, _, reads⟩ :=
    read.object ((keys_keptEntries results).nodup distinct) (order.nodup_iff.1 formed.1)
  have matching : Entries.Corresponds (Outweighs NullOrKept) entries backs := by
    refine ⟨by simpa using (order.trans names.symm).length_eq, fun entry held => ?_⟩
    obtain ⟨shape, slot⟩ := Entries.exists_get?_of_perm order held
    obtain ⟨value, found, read⟩ := reads entry.1 shape slot
    obtain ⟨result, kept, leaves⟩ := parts.get? (Entries.get?_of_mem formed.1 held)
    rw [get?_keptEntries distinct kept] at read
    refine ⟨value, found, ?_⟩
    cases result with
    | none =>
      obtain rfl := (reads_null _ _).1 read
      refine ⟨entry.2.weight_pos, fun balanced => ?_⟩
      have null := leaves.isNull_of_weight balanced.symm
      refine ⟨fun _ => null, faithful_of_members_nil ?_⟩
      cases value : entry.2 <;> simp_all [isNull, members]
    | some document =>
      obtain ⟨lighter, balance⟩ := each entry held document shape value leaves slot read
      refine ⟨lighter, fun balanced => ⟨fun absent => ?_, balance balanced⟩⟩
      cases absent.unique leaves
  obtain ⟨arranged, aligned, perm⟩ := matching.exists_aligned formed.1
  obtain ⟨lighter, balance⟩ := sum_weight_le aligned.values
  have sums := ((perm.map Prod.snd).map weight).sum_nat
  have before : (object entries).weight = ((entries.map Prod.snd).map weight).sum + 1 :=
    weight_eq _
  have after : (object backs).weight = ((backs.map Prod.snd).map weight).sum + 1 := weight_eq _
  refine ⟨by omega, fun balanced => ?_⟩
  have all := balance (by omega)
  exact (faithful_iff _).2 ⟨fun member held absent => ⟨(all member held).1 absent, entries, rfl⟩,
    fun member held => (all member held).2⟩

/-- What is read back weighs no more than the value, and as much only if nothing was lost. -/
theorem weight_back {value back : Value} {document : Json} {other : Shape}
    (sent : Outbound value document other) (read : Reads document other back) :
    Outweighs Faithful value back := by
  induction value generalizing document other back with
  | null shape => simpa using sent.leaves
  | unknown shape => exact absurd sent.leaves (leaves_unknown _ _)
  | text known =>
    obtain rfl := (Shape.string_beq _).1 sent.same
    obtain rfl : document = .text known := by simpa using sent.leaves
    obtain rfl : back = .text known := by simpa using read
    exact ⟨Nat.le_refl _, fun _ => faithful_of_members_nil rfl⟩
  | bool known =>
    obtain rfl := (Shape.bool_beq _).1 sent.same
    obtain rfl : document = .bool known := by simpa using sent.leaves
    obtain rfl : back = .bool known := by simpa using read
    exact ⟨Nat.le_refl _, fun _ => faithful_of_members_nil rfl⟩
  | number known =>
    obtain rfl := (Shape.number_beq _).1 sent.same
    obtain ⟨number, _, equal⟩ := (leaves_number _ _).1 sent.leaves
    obtain rfl := Option.some.inj equal
    obtain ⟨_, rfl⟩ := (reads_number _ _ _).1 read
    exact ⟨Nat.le_refl _, fun _ => faithful_of_members_nil rfl⟩
  | list element items ih =>
    obtain ⟨inner, results, rfl, rfl, _, _, parts, each⟩ := sent.list
    obtain ⟨values, again, reads, _, rfl⟩ := (reads_list _ _ _).1 read
    exact weight_collection parts reads rfl fun item held document back leaves read =>
      ih item held (each item held document leaves) read
  | set element items ih =>
    obtain ⟨inner, results, rfl, rfl, _, _, parts, each⟩ := sent.set
    obtain ⟨values, again, reads, _, rfl⟩ := (reads_set _ _ _).1 read
    exact weight_collection parts reads rfl fun item held document back leaves read =>
      ih item held (each item held document leaves) read
  | map element entries ih =>
    obtain ⟨inner, results, rfl, rfl, _, _, parts, each⟩ := sent.map
    obtain ⟨backs, again, reads, _, rfl⟩ := (reads_map _ _ _).1 read
    have values := ReadsMember.values reads
    rw [map_snd_keptEntries] at values
    have holds : (map again (backs.map fun entry => (entry.1, retypeNull again entry.2))).members =
        (backs.map Prod.snd).map (retypeNull again) := by simp [members]
    refine weight_collection parts.values values holds ?_
    exact List.forall_mem_map.2 fun entry held document back leaves read =>
      ih entry held (each entry held document leaves) read
  | tuple items ih =>
    obtain ⟨slots, results, rfl, rfl, parts, present, fixed⟩ := sent.tuple
    exact weight_tuple parts present fixed read fun item held document slot back sent read =>
      ih item held sent read
  | object entries ih =>
    have formed := sent.formed
    obtain ⟨attributes, results, rfl, rfl, parts, order, each⟩ := sent.object
    exact weight_object formed parts order read fun entry held document shape back leaves slot =>
      ih entry held ((each entry held shape slot).outbound leaves)

/--
A value without `dynamic` in its shape is read back from its document as an equal value exactly when
no list, tuple, set or map in it has a member that is absent from documents, and every attribute in
it that is absent is null itself.
-/
theorem ofJson_toJson?_iff {value : Value} {document : Json} (formed : value.WellFormed)
    (conforms : value.conforms = true) (static : value.shape.hasDynamic = false)
    (sent : toJson? value .root = .ok (some document)) :
    (∃ back, ofJson document value.shape .root = .ok back ∧ back == value) ↔
      (∀ part, Inside part value → (∀ entries, part ≠ object entries) →
        ∀ member ∈ part.members, toJson? member .root ≠ .ok none) ∧
      ∀ entries, Inside (object entries) value → ∀ entry ∈ entries,
        toJson? entry.2 .root = .ok none → entry.2.isNull = true := by
  have leaves := (toJson?_ok _ _ _).1 sent
  have shape := formed.shape
  have crosses : Outbound value document value.shape :=
    ⟨formed, conforms, static, leaves, Shape.beq_refl shape⟩
  constructor
  · rintro ⟨back, converted, equal⟩
    have read := reads_of_ofJson converted
    have backFormed := read.wellFormed (leaves.wellFormed formed) shape
    have same := (beq_iff_same backFormed formed).1 equal
    have faithful : Faithful value := (weight_back crosses read).balance (same.weight_eq backFormed)
    constructor
    · intro part inside apart member held absent
      obtain ⟨_, entries, rfl⟩ := faithful part inside member held ((toJson?_ok _ _ _).1 absent)
      exact apart entries rfl
    · intro entries inside entry held absent
      have member : entry.2 ∈ (object entries).members := List.mem_map_of_mem held
      exact (faithful _ inside entry.2 member ((toJson?_ok _ _ _).1 absent)).1
  · rintro ⟨collections, attributes⟩
    have faithful : Faithful value := by
      intro part inside member held absent
      by_cases object : ∃ entries, part = object entries
      · obtain ⟨entries, rfl⟩ := object
        obtain ⟨entry, there, rfl⟩ := List.mem_map.1 held
        exact ⟨attributes entries inside entry there (absent .root), entries, rfl⟩
      · exact absurd (absent .root)
          (collections part inside (fun entries same => object ⟨entries, same⟩) member held)
    exact (faithful.readsBack crosses).exists_ofJson formed (leaves.wellFormed formed) shape

/-- A record of a text, a missing note and a set of texts. -/
def record : Value :=
  .object [("name", .text "a"), ("note", .null .string), ("tags", .set .string [.text "b"])]

/-- The record in a document, which leaves the missing note out. -/
def recordDocument : Json := .object [("name", .text "a"), ("tags", .array [.text "b"])]

/-- The record is read back from its document, because all that it loses is the missing note. -/
theorem record_round_trip :
    (∃ back, ofJson recordDocument record.shape .root = .ok back ∧ back == record) ↔
      (∀ part, Inside part record → (∀ entries, part ≠ object entries) →
        ∀ member ∈ part.members, toJson? member .root ≠ .ok none) ∧
      ∀ entries, Inside (object entries) record → ∀ entry ∈ entries,
        toJson? entry.2 .root = .ok none → entry.2.isNull = true :=
  ofJson_toJson?_iff (by simp [record, Entries.Distinct]) (by decide) (by decide) rfl

end TypedTree.Value
