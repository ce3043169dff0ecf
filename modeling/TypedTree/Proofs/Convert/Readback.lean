import TypedTree.Proofs.Convert.Gathering
import TypedTree.Proofs.Convert.Wiring
import TypedTree.Proofs.Decimal.Exactness
import TypedTree.Proofs.Value.Comparison

/-!
# State on the wire reads back

The wire form of a value that was read from a document reads back as the same value, both under the
shape that the document was read under and under the shape that the value came to have. The two
differ in both directions: the value has inferred element shapes and spread tuples where the
declared shape does not, and members of its own may be shaped more precisely than its declared
elements are. So the induction carries both readings at once.
-/

namespace TypedTree.Value

/-- A document reads under a shape as a value that is the same as a given one. -/
def ReadsBack (value : Value) (document : Json) (shape : Shape) : Prop :=
  ∃ back, Reads document shape back ∧ Same value back

/-- A null reads back under every shape that equals its own. -/
theorem readsBack_null {declared other : Shape} (same : declared == other) :
    ReadsBack (null declared) .null other :=
  ⟨null other, by simp, .null same⟩

/-- Two values are the same, or both are null, whatever their shapes. -/
def Alike (a b : Value) : Prop :=
  a.isNull = b.isNull ∧ (a.isNull = false → Same a b)

/-- Values that are the same are null together and have equal shapes. -/
theorem Same.alike {a b : Value} (same : Same a b) : Alike a b :=
  ⟨same.isNull.symm, fun _ => same⟩

/-- Nulls that are given equal shapes are the same. -/
theorem Alike.retypeNull {a b : Value} (alike : Alike a b) {shape other : Shape}
    (equal : shape == other) : Same (a.retypeNull shape) (b.retypeNull other) := by
  cases absent : a.isNull with
  | true =>
    rw [retypeNull_of_null shape absent, retypeNull_of_null other (alike.1 ▸ absent)]
    exact .null equal
  | false =>
    rw [retypeNull_of_present shape absent, retypeNull_of_present other (alike.1 ▸ absent)]
    exact alike.2 absent

/-- A shape that items share is shared by items that are alike. -/
theorem Shares.alike {element : Shape} {items others : List Value}
    (shared : Shares element items) (alike : List.Forall₂ Alike items others) :
    Shares element others := by
  intro other held
  obtain ⟨item, there, same⟩ := Paired.exists_left alike held
  rcases shared item there with absent | equal
  · exact .inl (same.1 ▸ absent)
  · cases absent : item.isNull with
    | true => exact .inl (same.1 ▸ absent)
    | false => exact .inr (Shape.beq_trans equal (same.2 absent).shape)

/-- Alike items let equal shapes be inferred from them. -/
theorem Infers.alike {items others : List Value} {element shape : Shape}
    (inferred : Infers items element) (again : Infers others shape)
    (alike : List.Forall₂ Alike items others) : element == shape := by
  rcases again.2 with ⟨other, held, present, _⟩ | ⟨absent, rfl⟩
  · exact again.beq (inferred.1.alike alike) held present
  · rcases inferred.2 with ⟨item, held, present, _⟩ | ⟨_, rfl⟩
    · obtain ⟨other, there, same⟩ := Paired.exists_right alike held
      simp [same.1, absent other there] at present
    · rfl

/-- Nulls are alike, whatever their shapes. -/
theorem alike_of_null {value : Value} (absent : value.isNull = true) (shape : Shape) :
    Alike value (null shape) :=
  ⟨absent, fun present => by simp [absent] at present⟩

/-- Alike values are the same members once their nulls are given equal shapes. -/
theorem forall₂_retypeNull {values backs : List Value} {element again : Shape}
    (alike : List.Forall₂ Alike values backs) (equal : element == again) :
    List.Forall₂ Same (values.map (Value.retypeNull element))
      (backs.map (Value.retypeNull again)) := by
  rw [List.forall₂_map_left_iff, List.forall₂_map_right_iff]
  exact Paired.imp alike fun _ _ _ _ alike => alike.retypeNull equal

section Members

variable {declared element other : Shape} {documents sent : List Json} {values backs : List Value}

/--
Members on the wire read back under the declared element shape and under the unified one: those that
are not null have the unified shape where it was inferred, and a null reads under every shape.
-/
theorem exists_alike (distinct : ∀ document ∈ documents, document.WellFormed)
    (formed : declared.WellFormed) (parts : List.Forall₂ (Reads · declared ·) documents values)
    (unified : Unified declared values element) (under : declared == other ∨ element == other)
    (wires : List.Forall₂ Wires (values.map (Value.retypeNull element)) sent)
    (back : ∀ document ∈ documents, ∀ value sent, Reads document declared value →
      Wires value sent → declared == other ∨ value.shape == other → ReadsBack value sent other) :
    ∃ backs, List.Forall₂ (Reads · other ·) sent backs ∧ List.Forall₂ Alike values backs := by
  have known := forall_wellFormed distinct formed parts
  have shape := unified.wellFormed formed known
  rw [List.forall₂_map_left_iff] at wires
  refine Paired.exists_between (Paired.imp wires fun value held document _ sent => ?_)
  obtain ⟨source, there, read⟩ := Paired.exists_left parts held
  cases absent : value.isNull with
  | true =>
    rw [retypeNull_of_null element absent, wires_null] at sent
    exact ⟨null other, by simp [sent], alike_of_null absent other⟩
  | false =>
    rw [retypeNull_of_present element absent] at sent
    have place : declared == other ∨ value.shape == other := by
      rcases under with same | same
      · exact .inl same
      · rcases unified with ⟨_, rfl⟩ | ⟨_, inferred⟩
        · exact .inl same
        · have own := (inferred.1 value held).resolve_left (by simp [absent])
          exact .inr (Shape.beq_trans (Shape.beq_symm shape own) same)
    obtain ⟨back, read, same⟩ := back source there value document read sent place
    exact ⟨back, read, same.alike⟩

/-- What is read back from well-formed members on the wire is well-formed. -/
theorem backs_wellFormed (known : ∀ value ∈ values, value.WellFormed) (shape : element.WellFormed)
    (otherFormed : other.WellFormed)
    (wires : List.Forall₂ Wires (values.map (Value.retypeNull element)) sent)
    (reads : List.Forall₂ (Reads · other ·) sent backs) : ∀ back ∈ backs, back.WellFormed := by
  rw [List.forall₂_map_left_iff] at wires
  refine forall_wellFormed (fun document held => ?_) otherFormed reads
  obtain ⟨value, source, sent⟩ := Paired.exists_left wires held
  exact sent.wellFormed ((known value source).retypeNull shape)

/-- Unifying what is read back gives an element shape that equals the one before. -/
theorem exists_unify_alike (shape : element.WellFormed) (unified : Unified declared values element)
    (under : declared == other ∨ element == other) (alike : List.Forall₂ Alike values backs)
    (formed : ∀ back ∈ backs, back.WellFormed) {found : List (Step × Value)}
    (steps : found.map Prod.snd = backs) :
    ∃ again, unify other found = .ok again ∧ element == again := by
  subst steps
  by_cases untyped : other = .dynamic
  · subst untyped
    have inferred : Infers values element := by
      rcases unified with ⟨typed, rfl⟩ | ⟨_, inferred⟩
      · exact absurd (by simpa using under) typed
      · exact inferred
    obtain ⟨again, unifies, inferredAgain⟩ :=
      exists_unify shape formed (inferred.1.alike alike)
    exact ⟨again, unifies, inferred.alike inferredAgain alike⟩
  · refine ⟨other, unify_declared untyped found, ?_⟩
    rcases under with same | same
    · rcases unified with ⟨_, rfl⟩ | ⟨rfl, _⟩
      · exact same
      · exact absurd (by simpa using same) untyped
    · exact same

end Members

/-- What a collection gathered reads back from the wire, and unifies to an equal shape. -/
theorem Gathers.readsBack {declared element other : Shape} {documents sent : List Json}
    {members : List Value} (gathered : Gathers declared documents element members)
    (distinct : ∀ document ∈ documents, document.WellFormed) (formed : declared.WellFormed)
    (under : declared == other ∨ element == other) (wires : List.Forall₂ Wires members sent)
    (back : ∀ document ∈ documents, ∀ value sent, Reads document declared value →
      Wires value sent → declared == other ∨ value.shape == other → ReadsBack value sent other) :
    ∃ backs, List.Forall₂ (Reads · other ·) sent backs ∧
      ∀ found : List (Step × Value), found.map Prod.snd = backs →
        ∃ again, unify other found = .ok again ∧ element == again ∧
          List.Forall₂ Same members (backs.map (Value.retypeNull again)) := by
  obtain ⟨values, parts, unified, rfl⟩ := gathered
  have known := forall_wellFormed distinct formed parts
  have shape := unified.wellFormed formed known
  obtain ⟨backs, reads, alike⟩ := exists_alike distinct formed parts unified under wires back
  have otherFormed : other.WellFormed := under.elim formed.of_beq shape.of_beq
  have backsFormed := backs_wellFormed known shape otherFormed wires reads
  refine ⟨backs, reads, fun found steps => ?_⟩
  obtain ⟨again, unifies, equal⟩ :=
    exists_unify_alike shape unified under alike backsFormed steps
  exact ⟨again, unifies, equal, forall₂_retypeNull alike equal⟩

/-- Items that are gathered where nothing is declared read back there as a list again. -/
theorem Gathers.readsBack_sequence {element : Shape} {documents sent : List Json}
    {members : List Value} (gathered : Gathers .dynamic documents element members)
    (present : ∃ member ∈ members, member.isNull = false)
    (distinct : ∀ document ∈ documents, document.WellFormed)
    (wires : List.Forall₂ Wires members sent)
    (back : ∀ document ∈ documents, ∀ value sent, Reads document .dynamic value →
      Wires value sent → Shape.dynamic == Shape.dynamic ∨ value.shape == .dynamic →
      ReadsBack value sent .dynamic) :
    ReadsBack (list element members) (.array sent) .dynamic := by
  obtain ⟨values, parts, unified, rfl⟩ := gathered
  have known := forall_wellFormed distinct .dynamic parts
  have shape := unified.wellFormed .dynamic known
  obtain ⟨backs, reads, alike⟩ :=
    exists_alike distinct .dynamic parts unified (.inl rfl) wires back
  have backsFormed := backs_wellFormed known shape .dynamic wires reads
  have inferred : Infers values element := by simpa [Unified] using unified
  obtain ⟨_, held, known⟩ := present
  obtain ⟨value, there, rfl⟩ := List.mem_map.1 held
  rw [isNull_retypeNull] at known
  obtain ⟨other, inside, same⟩ := Paired.exists_right alike there
  obtain ⟨again, shared⟩ := exists_sharedShape? shape (inferred.1.alike alike) inside
    (same.1 ▸ known)
  have equal := inferred.alike (infers_of_sharedShape? backsFormed shared).1 alike
  exact ⟨_, (reads_sequence _ _).2 ⟨backs, reads, by simp [inferSequence, shared]⟩,
    .list equal (forall₂_retypeNull alike equal)⟩

/-- Items read back as a tuple when each of them reads back in its own slot. -/
theorem readsBack_tuple {values : List Value} {documents : List Json} {slots : List Shape}
    (size : slots.length = documents.length)
    (each : List.Forall₂ (fun value pair => ReadsBack value pair.1 pair.2) values
      (documents.zip slots)) :
    ReadsBack (tuple values) (.array documents) (.tuple slots) := by
  obtain ⟨backs, reads, same⟩ := Paired.exists_between each
  exact ⟨tuple backs, (reads_tuple _ _ _).2 ⟨backs, rfl, .inl ⟨size, reads⟩⟩, .tuple same⟩

/-- Items that share no shape are the same as items that share none. -/
theorem sharedShape?_eq_none {values backs : List Value}
    (known : ∀ value ∈ values, value.WellFormed) (formed : ∀ back ∈ backs, back.WellFormed)
    (same : List.Forall₂ Same values backs) (mixed : sharedShape? values = none) :
    sharedShape? backs = none := by
  cases shared : sharedShape? backs with
  | none => rfl
  | some element =>
    obtain ⟨inferred, back, held, present⟩ := infers_of_sharedShape? formed shared
    have alike : List.Forall₂ Alike backs values :=
      Paired.symm same fun value there back inside same =>
        (same.symm (known value there) (formed back inside)).alike
    obtain ⟨value, there, turned⟩ := Paired.exists_right alike held
    obtain ⟨other, found⟩ := exists_sharedShape? (inferred.wellFormed formed)
      (inferred.1.alike alike) there (turned.1 ▸ present)
    simp [mixed] at found

/--
Members read back as an object when every attribute reads back from the member of its name, or from
null where that member is missing.
-/
theorem readsBack_object {entries : List (String × Value)} {members : List (String × Json)}
    {attributes : List (String × Shape)} (distinct : Entries.Distinct entries)
    (apart : Entries.Distinct members)
    (names : (Entries.keys entries).Perm (Entries.keys attributes))
    (inside : ∀ name ∈ Entries.keys members, name ∈ Entries.keys attributes)
    (each : ∀ name value shape, Entries.get? entries name = some value →
      Entries.get? attributes name = some shape →
      ReadsBack value ((Entries.get? members name).getD .null) shape) :
    ReadsBack (object entries) (.object members) (.object attributes) := by
  have again (name : String) (shape : Shape) (slot : Entries.get? attributes name = some shape) :
      ∃ back, Reads ((Entries.get? members name).getD .null) shape back ∧
        ∃ value, Entries.get? entries name = some value ∧ Same value back := by
    obtain ⟨value, found⟩ := Entries.exists_get?_of_perm names.symm (Entries.mem_of_get? slot)
    obtain ⟨back, read, same⟩ := each name value shape found slot
    exact ⟨back, read, value, found, same⟩
  have declared : Entries.Distinct attributes := names.nodup_iff.1 distinct
  obtain ⟨backs, read, order, holds⟩ := exists_reads_object apart declared inside again
  have keys := names.trans order.symm
  refine ⟨object backs, read, (object_same _ _).2 ⟨backs, rfl, ?_, fun entry held => ?_⟩⟩
  · simpa using keys.length_eq
  · obtain ⟨back, found⟩ := Entries.exists_get?_of_perm keys held
    obtain ⟨value, there, same⟩ := holds _ _ found
    obtain rfl : value = entry.2 := Entries.eq_of_get? distinct held there
    exact ⟨back, found, same⟩

/-- A shape that equals that of an object has attributes of equal shapes for its entries. -/
theorem exists_own {entries : List (String × Value)} {other : Shape}
    (distinct : Entries.Distinct entries) (same : (object entries).shape == other) :
    ∃ others, other = .object others ∧ (Entries.keys entries).Perm (Entries.keys others) ∧
      ∀ name value shape, Entries.get? entries name = some value →
        Entries.get? others name = some shape → value.shape == shape := by
  rw [shape_object] at same
  obtain ⟨others, rfl, equal⟩ := (Shape.object_beq _ _).1 same
  refine ⟨others, rfl, ?_, fun name value shape found slot => ?_⟩
  · simpa using equal.keys_perm (by simpa [Entries.Distinct] using distinct)
  · have own : Entries.get? (entries.map fun entry => (entry.1, entry.2.shape)) name =
        some value.shape := by simp [Entries.get?_map, found]
    obtain ⟨other, there, same⟩ := equal.get? own
    exact Option.some.inj (slot.symm.trans there) ▸ same

/-- A scalar that was read under its own shape or under `dynamic` can be read under one of them. -/
theorem scalar_under {kind shape other : Shape} (scalar : ∀ shape, kind == shape ↔ shape = kind)
    (read : shape = kind ∨ shape = .dynamic) (under : shape == other ∨ kind == other) :
    other = kind ∨ other = .dynamic := by
  rcases read with rfl | rfl
  · exact .inl ((scalar other).1 (or_self_iff.1 under))
  · exact under.symm.imp (scalar other).1 (Shape.dynamic_beq other).1

/--
What these documents read as reads back from its wire form, under every shape that equals the
declared one or that of the value.
-/
def AllReadBack (documents : List Json) : Prop :=
  ∀ document ∈ documents, ∀ declared other value sent, declared.WellFormed →
    Reads document declared value → Wires value sent →
    declared == other ∨ value.shape == other → ReadsBack value sent other

section Sequences

variable {items sent : List Json} {values : List Value}

/-- Items that were read in slots of their own read back in slots of equal shapes. -/
theorem AllReadBack.slots {slots others : List Shape} (back : AllReadBack items)
    (formed : ∀ slot ∈ slots, slot.WellFormed) (size : slots.length = items.length)
    (parts : List.Forall₂ (fun pair value => Reads pair.1 pair.2 value) (items.zip slots) values)
    (wires : List.Forall₂ Wires values sent)
    (equal : List.Forall₂ (fun slot other => slot == other) slots others) :
    ReadsBack (tuple values) (.array sent) (.tuple others) := by
  have paired : List.Forall₂ (fun pair other => pair.2 == other) (items.zip slots) others := by
    rw [← List.map_snd_zip (Nat.le_of_eq size), List.forall₂_map_left_iff] at equal
    exact equal
  have sources : List.Forall₂ (fun value other => ∃ pair ∈ items.zip slots,
      Reads pair.1 pair.2 value ∧ pair.2 == other) values others :=
    Paired.trans (Paired.symm parts fun _ _ _ _ read => read) paired
      fun _ _ pair held _ _ read same => ⟨pair, held, read, same⟩
  refine readsBack_tuple (sources.length_eq.symm.trans wires.length_eq) ?_
  refine Paired.zip wires sources fun value _ document _ other _ sent source => ?_
  obtain ⟨pair, held, read, same⟩ := source
  obtain ⟨itemHeld, slotHeld⟩ := List.of_mem_zip held
  exact back _ itemHeld pair.2 other value document (formed _ slotHeld) read sent (.inl same)

/-- Items that were all read in the only slot read back in a slot of an equal shape. -/
theorem AllReadBack.spread {slot other : Shape} (back : AllReadBack items)
    (formed : slot.WellFormed) (more : items.length ≠ 1)
    (parts : List.Forall₂ (Reads · slot ·) items values) (wires : List.Forall₂ Wires values sent)
    (equal : slot == other) : ReadsBack (tuple values) (.array sent) (.tuple [other]) := by
  have each : List.Forall₂ (fun value document => ReadsBack value document other) values sent := by
    refine Paired.imp wires fun value held document _ sent => ?_
    obtain ⟨item, there, read⟩ := Paired.exists_left parts held
    exact back item there slot other value document formed read sent (.inl equal)
  obtain ⟨backs, reads, same⟩ := Paired.exists_between each
  have size : sent.length ≠ 1 := by rwa [← wires.length_eq, ← parts.length_eq]
  exact ⟨_, (reads_tuple _ _ _).2 ⟨backs, rfl, .inr ⟨other, rfl, size, reads⟩⟩, .tuple same⟩

/-- Items that share no shape read back as a tuple where nothing is declared. -/
theorem AllReadBack.mixed (back : AllReadBack items)
    (distinct : ∀ item ∈ items, item.WellFormed)
    (parts : List.Forall₂ (Reads · .dynamic ·) items values)
    (unshared : sharedShape? values = none) (wires : List.Forall₂ Wires values sent) :
    ReadsBack (tuple values) (.array sent) .dynamic := by
  have known := forall_wellFormed distinct .dynamic parts
  have sentFormed : ∀ document ∈ sent, document.WellFormed := by
    intro document held
    obtain ⟨value, there, sent⟩ := Paired.exists_left wires held
    exact sent.wellFormed (known value there)
  have each : List.Forall₂ (fun value document => ReadsBack value document .dynamic)
      values sent := by
    refine Paired.imp wires fun value held document _ sent => ?_
    obtain ⟨item, there, read⟩ := Paired.exists_left parts held
    exact back item there .dynamic .dynamic value document .dynamic read sent (.inl rfl)
  obtain ⟨backs, reads, same⟩ := Paired.exists_between each
  have again := sharedShape?_eq_none known (forall_wellFormed sentFormed .dynamic reads) same
    unshared
  exact ⟨_, (reads_sequence _ _).2 ⟨backs, reads, by simp [inferSequence, again]⟩, .tuple same⟩

/-- A tuple reads back under a shape that equals its own. -/
theorem AllReadBack.tuple_own {other : Shape} (back : AllReadBack items)
    (origin : ∀ value ∈ values, ∃ item ∈ items, ∃ slot : Shape, slot.WellFormed ∧
      Reads item slot value)
    (wires : List.Forall₂ Wires values sent) (same : (tuple values).shape == other) :
    ReadsBack (tuple values) (.array sent) other := by
  rw [shape_tuple] at same
  obtain ⟨others, rfl, equal⟩ := (Shape.tuple_beq _ _).1 same
  rw [List.forall₂_map_left_iff] at equal
  refine readsBack_tuple (equal.length_eq.symm.trans wires.length_eq) ?_
  refine Paired.zip wires equal fun value held document _ slot _ sent same => ?_
  obtain ⟨item, there, declared, formed, read⟩ := origin value held
  exact back item there declared slot value document formed read sent (.inr same)

/-- What a list or set gathered reads back as one of an equal element shape. -/
theorem AllReadBack.gathered {declared element other : Shape} {members : List Value}
    (back : AllReadBack items) (gathered : Gathers declared items element members)
    (distinct : ∀ item ∈ items, item.WellFormed) (formed : declared.WellFormed)
    (under : declared == other ∨ element == other) (wires : List.Forall₂ Wires members sent) :
    ReadsBack (list element members) (.array sent) (.list other) ∧
      ReadsBack (set element members) (.array sent) (.set other) := by
  obtain ⟨backs, reads, unifies⟩ := gathered.readsBack distinct formed under wires
    fun item held value sent => back item held declared other value sent formed
  obtain ⟨again, unified, equal, same⟩ := unifies (indexed backs) (map_snd_indexed _)
  constructor
  · exact ⟨_, (reads_list _ _ _).2 ⟨backs, again, reads, unified, rfl⟩, .list equal same⟩
  · exact ⟨_, (reads_set _ _ _).2 ⟨backs, again, reads, unified, rfl⟩, .set equal same (.refl _)⟩

/-- A sequence reads back when its items do, whatever it was read as. -/
theorem AllReadBack.array {shape other : Shape} {value : Value} {sent : Json}
    (back : AllReadBack items) (distinct : ∀ item ∈ items, item.WellFormed)
    (formed : shape.WellFormed) (read : Reads (.array items) shape value)
    (wires : Wires value sent) (under : shape == other ∨ value.shape == other) :
    ReadsBack value sent other := by
  rcases read.array_shape with ⟨declared, rfl⟩ | ⟨declared, rfl⟩ | ⟨slots, rfl⟩ | rfl
  · rw [Shape.wellFormed_list] at formed
    obtain ⟨element, members, rfl, gathered⟩ := read.list distinct formed
    obtain ⟨sent, parts, rfl⟩ := (wires_list _ _ _).1 wires
    obtain ⟨inner, rfl, under⟩ : ∃ inner, other = .list inner ∧
        (declared == inner ∨ element == inner) := by
      simpa only [shape_list, Shape.list_beq, ← exists_or, ← and_or_left] using under
    exact (back.gathered gathered distinct formed under parts).1
  · rw [Shape.wellFormed_set] at formed
    obtain ⟨element, members, rfl, gathered⟩ := read.set distinct formed
    obtain ⟨sent, parts, rfl⟩ := (wires_set _ _ _).1 wires
    obtain ⟨inner, rfl, under⟩ : ∃ inner, other = .set inner ∧
        (declared == inner ∨ element == inner) := by
      simpa only [shape_set, Shape.set_beq, ← exists_or, ← and_or_left] using under
    exact (back.gathered gathered distinct formed under parts).2
  · rw [Shape.wellFormed_tuple] at formed
    obtain ⟨sources, same, origin⟩ := read.tuple
    obtain ⟨values, rfl, parts⟩ := (reads_tuple _ _ _).1 read
    obtain rfl := Value.tuple.inj same
    obtain ⟨sent, sentParts, rfl⟩ := (wires_tuple _ _).1 wires
    rcases under with same | same
    · obtain ⟨others, rfl, equal⟩ := (Shape.tuple_beq _ _).1 same
      rcases parts with ⟨size, parts⟩ | ⟨slot, rfl, more, parts⟩
      · exact back.slots formed size parts sentParts equal
      · obtain _ | ⟨first, _ | _⟩ := equal
        exact back.spread (formed slot List.mem_cons_self) more parts sentParts first
    · refine back.tuple_own (fun value held => ?_) sentParts same
      obtain ⟨item, there, declared, slot, read⟩ := origin value held
      exact ⟨item, there, declared, formed declared slot, read⟩
  · rcases read.sequence distinct with ⟨element, members, rfl, gathered, present⟩ |
      ⟨values, rfl, parts, mixed⟩
    · obtain ⟨sent, parts, rfl⟩ := (wires_list _ _ _).1 wires
      rcases under with same | same
      · obtain rfl := (Shape.dynamic_beq _).1 same
        exact gathered.readsBack_sequence present distinct parts fun item held value sent =>
          back item held .dynamic .dynamic value sent .dynamic
      · obtain ⟨inner, rfl, equal⟩ := (Shape.list_beq _ _).1 same
        exact (back.gathered gathered distinct .dynamic (.inr equal) parts).1
    · obtain ⟨sent, sentParts, rfl⟩ := (wires_tuple _ _).1 wires
      rcases under with same | same
      · obtain rfl := (Shape.dynamic_beq _).1 same
        exact back.mixed distinct parts mixed sentParts
      · refine back.tuple_own (fun value held => ?_) sentParts same
        obtain ⟨item, there, read⟩ := Paired.exists_left parts held
        exact ⟨item, there, .dynamic, .dynamic, read⟩

end Sequences

section Mappings

variable {members sent : List (String × Json)} {entries : List (String × Value)}

/-- An object reads back when each of its values does from its own wire form. -/
theorem readsBack_wired {others : List (String × Shape)} (distinct : Entries.Distinct entries)
    (parts : Entries.Aligned Wires entries sent)
    (order : (Entries.keys entries).Perm (Entries.keys others))
    (each : ∀ name value shape document, Entries.get? entries name = some value →
      Entries.get? others name = some shape → Wires value document →
      ReadsBack value document shape) :
    ReadsBack (object entries) (.object sent) (.object others) := by
  have names := parts.keys_eq
  have sentDistinct : Entries.Distinct sent := by simpa only [Entries.Distinct, ← names]
  refine readsBack_object distinct sentDistinct order ?_ ?_
  · rw [← names]
    exact fun name held => order.mem_iff.1 held
  · intro name value shape found slot
    obtain ⟨document, sentFound, wires⟩ := parts.get? found
    rw [sentFound, Option.getD_some]
    exact each name value shape document found slot wires

/-- Declared attributes read back, also those that were null because their member was missing. -/
theorem AllReadBack.attributes {attributes others : List (String × Shape)}
    (back : AllReadBack (members.map Prod.snd)) (distinct : Entries.Distinct entries)
    (formed : ∀ entry ∈ attributes, entry.2.WellFormed)
    (names : (Entries.keys entries).Perm (Entries.keys attributes))
    (reads : ∀ name shape, Entries.get? attributes name = some shape →
      ∃ value, Entries.get? entries name = some value ∧
        Reads ((Entries.get? members name).getD .null) shape value)
    (order : (Entries.keys entries).Perm (Entries.keys others))
    (equal : ∀ name value slot shape, Entries.get? entries name = some value →
      Entries.get? attributes name = some slot → Entries.get? others name = some shape →
      slot == shape ∨ value.shape == shape)
    (parts : Entries.Aligned Wires entries sent) :
    ReadsBack (object entries) (.object sent) (.object others) := by
  refine readsBack_wired distinct parts order ?_
  intro name value shape document found slot wires
  obtain ⟨declared, declaredSlot⟩ :=
    Entries.exists_get?_of_perm names (Entries.mem_of_get? found)
  obtain ⟨same, held, read⟩ := reads name declared declaredSlot
  obtain rfl := Option.some.inj (held.symm.trans found)
  have under := equal name _ declared shape found declaredSlot slot
  cases source : Entries.get? members name with
  | none =>
    rw [source, Option.getD_none, reads_null] at read
    subst read
    obtain rfl := (wires_null _ _).1 wires
    exact readsBack_null (by simpa using under)
  | some original =>
    rw [source, Option.getD_some] at read
    have held := Entries.mem_of_get? source
    exact back original (List.mem_map_of_mem held) declared shape _ document
      (formed _ (Entries.mem_of_get? declaredSlot)) read wires under

/-- A map reads back as one of an equal element shape. -/
theorem AllReadBack.map {declared element other : Shape}
    (back : AllReadBack (members.map Prod.snd))
    (gathered : Gathers declared (members.map Prod.snd) element (entries.map Prod.snd))
    (distinct : ∀ document ∈ members.map Prod.snd, document.WellFormed)
    (formed : declared.WellFormed) (under : declared == other ∨ element == other)
    (parts : Entries.Aligned Wires entries sent)
    (apart : Entries.Distinct entries) :
    ReadsBack (map element entries) (.object sent) (.map other) := by
  obtain ⟨backs, reads, unifies⟩ := gathered.readsBack distinct formed under parts.values
    fun document held value sent => back document held declared other value sent formed
  have size : backs.length ≤ (Entries.keys sent).length := by
    simpa using reads.length_eq.symm.le
  obtain ⟨again, unified, equal, same⟩ := unifies (keyed ((Entries.keys sent).zip backs))
    (by rw [map_snd_keyed, List.map_snd_zip size])
  have aligned := Entries.Aligned.zip same
  rw [parts.keys_eq] at aligned
  exact ⟨_, reads_map_zip reads unified,
    (map_same _ _ _).2 ⟨_, _, rfl, equal, aligned.corresponds apart⟩⟩

/-- An object that was read where nothing is declared reads back there. -/
theorem AllReadBack.record (back : AllReadBack (members.map Prod.snd))
    (reads : List.Forall₂ (ReadsMember fun _ => some .dynamic) members entries)
    (parts : Entries.Aligned Wires entries sent) (apart : Entries.Distinct entries) :
    ReadsBack (object entries) (.object sent) .dynamic := by
  have each : List.Forall₂ (fun entry member => ∃ back : String × Value,
      ReadsMember (fun _ => some .dynamic) member back ∧
        (entry.1 = back.1 ∧ Same entry.2 back.2)) entries sent := by
    refine Paired.imp parts fun entry held member _ sent => ?_
    obtain ⟨source, there, _, _, slot, read⟩ := Paired.exists_left reads held
    obtain rfl := Option.some.inj slot
    obtain ⟨value, read, same⟩ := back source.2 (List.mem_map_of_mem there) .dynamic .dynamic
      entry.2 member.2 .dynamic read sent.2 (.inl rfl)
    exact ⟨(entry.1, value), ⟨sent.1.symm, .dynamic, rfl, read⟩, rfl, same⟩
  obtain ⟨backs, again, same⟩ := Paired.exists_between each
  have aligned : Entries.Aligned Same entries backs := same
  exact ⟨_, (reads_record _ _).2 ⟨backs, again, rfl⟩,
    (object_same _ _).2 ⟨_, rfl, aligned.corresponds apart⟩⟩

/-- An object that was read where nothing is declared reads back under its own shape. -/
theorem AllReadBack.record_own {other : Shape} (back : AllReadBack (members.map Prod.snd))
    (reads : List.Forall₂ (ReadsMember fun _ => some .dynamic) members entries)
    (parts : Entries.Aligned Wires entries sent) (apart : Entries.Distinct entries)
    (same : (object entries).shape == other) :
    ReadsBack (object entries) (.object sent) other := by
  obtain ⟨others, rfl, order, equal⟩ := exists_own apart same
  refine readsBack_wired apart parts order ?_
  intro name value shape document found slot wires
  obtain ⟨source, there, _, _, declared, read⟩ :=
    Paired.exists_left reads (Entries.mem_of_get? found)
  obtain rfl := Option.some.inj declared
  exact back source.2 (List.mem_map_of_mem there) .dynamic shape value document .dynamic read wires
    (.inr (equal name value shape found slot))

/-- An object reads back when its members do, whatever it was read as. -/
theorem AllReadBack.object {shape other : Shape} {value : Value} {sent : Json}
    (back : AllReadBack (members.map Prod.snd)) (distinct : (Json.object members).WellFormed)
    (formed : shape.WellFormed) (read : Reads (.object members) shape value)
    (wires : Wires value sent) (under : shape == other ∨ value.shape == other) :
    ReadsBack value sent other := by
  have valueFormed := read.wellFormed distinct formed
  rw [Json.wellFormed_object] at distinct
  rcases read.object_shape with ⟨attributes, rfl⟩ | ⟨declared, rfl⟩ | rfl
  · rw [Shape.wellFormed_object] at formed
    obtain ⟨entries, rfl, names, inside, reads⟩ := read.object distinct.1 formed.1
    obtain ⟨sent, parts, rfl⟩ := (wires_object _ _).1 wires
    rw [wellFormed_object] at valueFormed
    rcases under with same | same
    · obtain ⟨others, rfl, equal⟩ := (Shape.object_beq _ _).1 same
      have order := names.trans (equal.keys_perm formed.1)
      refine back.attributes valueFormed.1 formed.2 names reads order ?_ parts
      intro name value slot shape _ declared found
      obtain ⟨other, there, same⟩ := equal.get? declared
      exact .inl (Option.some.inj (found.symm.trans there) ▸ same)
    · obtain ⟨others, rfl, order, equal⟩ := exists_own valueFormed.1 same
      refine back.attributes valueFormed.1 formed.2 names reads order ?_ parts
      exact fun name value _ shape found _ slot => .inr (equal name value shape found slot)
  · rw [Shape.wellFormed_map] at formed
    obtain ⟨element, entries, rfl, names, gathered⟩ := read.map distinct.2 formed
    obtain ⟨sent, parts, rfl⟩ := (wires_map _ _ _).1 wires
    rw [wellFormed_map] at valueFormed
    obtain ⟨inner, rfl, under⟩ : ∃ inner, other = .map inner ∧
        (declared == inner ∨ element == inner) := by
      simpa only [shape_map, Shape.map_beq, ← exists_or, ← and_or_left] using under
    exact back.map gathered (List.forall_mem_map.2 distinct.2) formed under parts valueFormed.2.1
  · obtain ⟨entries, reads, rfl⟩ := (reads_record _ _).1 read
    obtain ⟨sent, parts, rfl⟩ := (wires_object _ _).1 wires
    rw [wellFormed_object] at valueFormed
    rcases under with same | same
    · obtain rfl := (Shape.dynamic_beq _).1 same
      exact back.record reads parts valueFormed.1
    · exact back.record_own reads parts valueFormed.1 same

end Mappings

/-- What was read reads back from the wire, under its declared shape and under its own. -/
theorem Reads.readsBack {document sent : Json} {shape other : Shape} {value : Value}
    (read : Reads document shape value) (distinct : document.WellFormed)
    (formed : shape.WellFormed) (wires : Wires value sent)
    (under : shape == other ∨ value.shape == other) : ReadsBack value sent other := by
  induction document generalizing shape value sent other with
  | null =>
    obtain rfl := (reads_null _ _).1 read
    obtain rfl := (wires_null _ _).1 wires
    exact readsBack_null (by simpa using under)
  | bool known =>
    obtain ⟨kind, rfl⟩ := (reads_bool _ _ _).1 read
    obtain rfl := (wires_bool _ _).1 wires
    exact ⟨_, (reads_bool _ _ _).2 ⟨scalar_under Shape.bool_beq kind under, rfl⟩, .bool known⟩
  | number known =>
    obtain ⟨kind, rfl⟩ := (reads_number _ _ _).1 read
    obtain ⟨sent, exactly, rfl⟩ := (wires_number _ _).1 wires
    refine ⟨_, (reads_number _ _ _).2 ⟨scalar_under Shape.number_beq kind under, rfl⟩, ?_⟩
    simp [Decimal.ofJson_of_toJson? exactly]
  | text known =>
    rcases (reads_text _ _ _).1 read with ⟨kind, rfl⟩ | ⟨rfl, n, numeral, rfl⟩
    · obtain rfl := (wires_text _ _).1 wires
      have place := scalar_under Shape.string_beq kind under
      exact ⟨_, (reads_text _ _ _).2 (.inl ⟨place, rfl⟩), .text known⟩
    · obtain ⟨sent, exactly, rfl⟩ := (wires_number _ _).1 wires
      refine ⟨_, (reads_number _ _ _).2 ⟨?_, rfl⟩, ?_⟩
      · exact .inl (by simpa [Value.shape] using under)
      · simp [Decimal.ofJson_of_toJson? exactly]
  | array items ih =>
    rw [Json.wellFormed_array] at distinct
    have back : AllReadBack items := fun item held _ _ _ _ formed read wires under =>
      ih item held read (distinct item held) formed wires under
    exact back.array distinct formed read wires under
  | object members ih =>
    have inside := ((Json.wellFormed_object _).1 distinct).2
    have back : AllReadBack (members.map Prod.snd) :=
      List.forall_mem_map.2 fun member held _ _ _ _ formed read wires under =>
        ih member held read (inside member held) formed wires under
    exact back.object distinct formed read wires under

/-- A document that reads back under a well-formed shape does so as an equal value. -/
theorem ReadsBack.exists_ofJson {value : Value} {document : Json} {shape : Shape}
    (readable : ReadsBack value document shape) (known : value.WellFormed)
    (distinct : document.WellFormed) (formed : shape.WellFormed) :
    ∃ back, ofJson document shape .root = .ok back ∧ back == value := by
  obtain ⟨back, read, same⟩ := readable
  have backFormed := read.wellFormed distinct formed
  exact ⟨back, read .root, (beq_iff_same backFormed known).2 (same.symm known backFormed)⟩

/--
The value part of the wire form of a value that was read converts to an equal value, both under the
shape of the value and under the shape it was read under.
-/
theorem ofJson_encode {document sent : Json} {shape : Shape} {value : Value}
    (distinct : document.WellFormed) (formed : shape.WellFormed)
    (converted : ofJson document shape .root = .ok value) (encoded : encode value = .ok sent) :
    ∃ part, sent.member? "value" = some part ∧
      (∃ back, ofJson part value.shape .root = .ok back ∧ back == value) ∧
      ∃ back, ofJson part shape .root = .ok back ∧ back == value := by
  have read := reads_of_ofJson converted
  have known := read.wellFormed distinct formed
  cases written : wireValue value .root with
  | error error => simp [encode, written] at encoded
  | ok part =>
    simp only [encode, written, Except.ok.injEq] at encoded
    subst encoded
    have wires := (wireValue_ok _ _ _).1 written
    have partFormed := wires.wellFormed known
    refine ⟨part, by simp [Json.member?, Entries.get?], ?_, ?_⟩
    · have own := read.readsBack distinct formed wires (.inr (Shape.beq_refl known.shape))
      exact own.exists_ofJson known partFormed known.shape
    · have declared := read.readsBack distinct formed wires (.inl (Shape.beq_refl formed))
      exact declared.exists_ofJson known partFormed formed

/-- Two sequences of texts, to be read as sets of anything in the only slot of a tuple. -/
def wireDocument : Json := .array [.array [.text "b", .null, .text "a"], .array [.null]]

@[inherit_doc wireDocument]
def wireShape : Shape := .tuple [.set .dynamic]

/-- What the sequences read as: a tuple of a set of texts and a set of nulls. -/
def wireState : Value :=
  .tuple [.set .string [.text "b", .null .string, .text "a"], .set .dynamic [.null .dynamic]]

/-- The state of two sets, in a spread slot with an inferred element shape each, reads back. -/
theorem wireState_reads_back :
    ∃ part, (Json.object [("type", wireState.shape.toJson), ("value", wireDocument)]).member?
        "value" = some part ∧
      (∃ back, ofJson part wireState.shape .root = .ok back ∧ back == wireState) ∧
      ∃ back, ofJson part wireShape .root = .ok back ∧ back == wireState :=
  have formed : wireDocument.WellFormed := by simp [wireDocument]
  ofJson_encode formed (by simp [wireShape]) rfl rfl

end TypedTree.Value
