import TypedTree.Proofs.Convert.EqualShapes
import TypedTree.Proofs.Convert.Readback

/-!
# Orders without a meaning

The order of the attributes of a shape, that of the members of an object, and that of the items of
an array that is read as a set say nothing. Inference starts from the first member that is not null,
and the comparison of sets takes the first free match. Even so a document in another order, under
a shape in another order, reads as an equal value, or neither of the two is read.
-/

namespace TypedTree

namespace Shape

variable {α β : Type} {shape other : Shape} {items others : List α}

/-- The orders in which a shape takes items for the same: every order for a set, else only one. -/
def Arranges (shape : Shape) (items others : List α) : Prop :=
  match shape with
  | set _ => items.Perm others
  | _ => items = others

namespace Arranges

/-- Items in an order that a shape takes for the same are the same items. -/
theorem perm (order : shape.Arranges items others) : items.Perm others := by
  cases shape with
  | set => exact order
  | _ => exact .of_eq order

theorem symm (order : shape.Arranges items others) : shape.Arranges others items := by
  cases shape with
  | set => exact List.Perm.symm order
  | _ => exact Eq.symm order

/-- Equal shapes take the same orders for the same. -/
theorem of_beq (order : shape.Arranges items others) (same : shape == other) :
    other.Arranges items others := by
  cases equal_of_beq same <;> exact order

/-- What items lead to in their slots can be put in the order of the items. -/
theorem exists_results {R : Shape → α → β → Prop} {count : Nat} {results : List β}
    (order : shape.Arranges items others)
    (paired : List.Forall₂ (fun item result => R (shape.itemSlot count item.2) item.1 result)
      items.zipIdx results) :
    ∃ again, List.Forall₂ (fun item result => R (shape.itemSlot count item.2) item.1 result)
        others.zipIdx again ∧ shape.Arranges results again := by
  cases shape with
  | set element =>
    have each := (Value.forall₂_zipIdx (R element) _ _ _).1 paired
    obtain ⟨again, placed, back⟩ := List.perm_comp_forall₂ (List.Perm.symm order) each
    exact ⟨again, (Value.forall₂_zipIdx (R element) _ _ _).2 placed, back.symm⟩
  | _ =>
    obtain rfl : items = others := order
    exact ⟨results, paired, rfl⟩

end Arranges

/-- Equal shapes have equal slots for the members of an object. -/
theorem memberSlot_beq (formed : shape.WellFormed) (same : shape == other) (name : String) :
    (shape.memberSlot name).WellFormed ∧ shape.memberSlot name == other.memberSlot name := by
  have slots := memberSlot?_rel formed same name
  rw [memberSlot_eq, memberSlot_eq]
  generalize shape.memberSlot? name = slot, other.memberSlot? name = again at slots
  cases slots with
  | none => exact ⟨.dynamic, rfl⟩
  | some known => exact known

end Shape

namespace Value

/--
Two documents differ, for a shape, in the order of the members of objects and of the items of sets
alone, at every depth. What a container holds is compared in place, and may then be put in another
order.
-/
inductive Rearranged : Shape → Json → Json → Prop
  | null (shape : Shape) : Rearranged shape .null .null
  | bool (shape : Shape) (known : Bool) : Rearranged shape (.bool known) (.bool known)
  | number (shape : Shape) (known : Json.Number) :
      Rearranged shape (.number known) (.number known)
  | text (shape : Shape) (known : String) : Rearranged shape (.text known) (.text known)
  | array {shape : Shape} {items arranged others : List Json} : items.length = arranged.length →
      (∀ (position : Nat) (item other : Json), items[position]? = some item →
        arranged[position]? = some other →
        Rearranged (shape.itemSlot items.length position) item other) →
      shape.Arranges arranged others → Rearranged shape (.array items) (.array others)
  | object {shape : Shape} {members arranged others : List (String × Json)} :
      Entries.keys members = Entries.keys arranged →
      (∀ (position : Nat) (member other : String × Json), members[position]? = some member →
        arranged[position]? = some other →
        Rearranged (shape.memberSlot member.1) member.2 other.2) →
      arranged.Perm others → Rearranged shape (.object members) (.object others)

section Containers

variable {shape other : Shape} {document again : Json}

/-- A rearranged array has its items rearranged in place, in an order that the shape allows. -/
theorem rearranged_array {items : List Json} :
    Rearranged shape (.array items) document ↔
      ∃ arranged others, document = .array others ∧
        List.Forall₂
          (fun item other => Rearranged (shape.itemSlot items.length item.2) item.1 other)
          items.zipIdx arranged ∧ shape.Arranges arranged others := by
  constructor
  · intro rearranged
    cases rearranged with
    | @array _ _ arranged others size each order =>
      refine ⟨arranged, others, rfl, Paired.positions_iff.2 ⟨by simpa using size, ?_⟩, order⟩
      rintro position ⟨item, _⟩ other held there
      obtain ⟨found, rfl⟩ : items[position]? = some item ∧ position = _ := by
        simpa [List.getElem?_zipIdx] using held
      exact each position item other found there
  · rintro ⟨arranged, others, rfl, paired, order⟩
    obtain ⟨size, each⟩ := Paired.positions_iff.1 paired
    refine .array (by simpa using size) (fun position item other held there => ?_) order
    exact each position (item, position) other (by simp [List.getElem?_zipIdx, held]) there

/-- The items of a rearranged array are as many, and each is rearranged at its own position. -/
theorem Rearranged.exists_beside {items : List Json}
    (rearranged : Rearranged shape (.array items) document) :
    ∃ arranged others, document = .array others ∧ items.length = others.length ∧
      List.Forall₂ (fun item other =>
        Rearranged (shape.itemSlot items.length item.2) item.1 other.1 ∧ item.2 = other.2)
        items.zipIdx arranged.zipIdx ∧ shape.Arranges arranged others := by
  obtain ⟨arranged, others, rfl, paired, order⟩ := rearranged_array.1 rearranged
  have size : items.length = others.length := by
    rw [← order.perm.length_eq, ← paired.length_eq, List.length_zipIdx]
  have beside := (Paired.zipIdx_iff
    (S := fun position => Rearranged (shape.itemSlot items.length position)) 0).2 paired
  exact ⟨arranged, others, rfl, size, beside, order⟩

/-- A rearranged object has its members rearranged in place, in any order. -/
theorem rearranged_object {members : List (String × Json)} :
    Rearranged shape (.object members) document ↔
      ∃ arranged others, document = .object others ∧
        List.Forall₂ (fun member other => member.1 = other.1 ∧
          Rearranged (shape.memberSlot member.1) member.2 other.2) members arranged ∧
        arranged.Perm others := by
  constructor
  · intro rearranged
    cases rearranged with
    | @object _ _ arranged others names each order =>
      rw [Entries.keys_eq_iff] at names
      refine ⟨arranged, others, rfl, Paired.positions_iff.2 ⟨names.length_eq, ?_⟩, order⟩
      intro position member other held there
      exact ⟨Paired.at_position names held there, each position member other held there⟩
  · rintro ⟨arranged, others, rfl, paired, order⟩
    have names := Entries.keys_eq_iff.2 (paired.imp fun _ _ same => same.1)
    refine .object names (fun position member other held there => ?_) order
    exact (Paired.at_position paired held there).2

/-- A rearranged document is rearranged into the other one under every equal shape. -/
theorem Rearranged.turned (rearranged : Rearranged shape document again)
    (formed : shape.WellFormed) (same : shape == other) : Rearranged other again document := by
  induction document generalizing shape other again with
  | null => cases rearranged; exact .null other
  | bool known => cases rearranged; exact .bool other known
  | number known => cases rearranged; exact .number other known
  | text known => cases rearranged; exact .text other known
  | array items ih =>
    obtain ⟨arranged, others, rfl, size, beside, order⟩ := rearranged.exists_beside
    have turned : List.Forall₂
        (fun item another => Rearranged (other.itemSlot items.length item.2) item.1 another)
        arranged.zipIdx items := by
      refine (Paired.zipIdx_iff
        (S := fun position => Rearranged (other.itemSlot items.length position)) 0).1 ?_
      refine Paired.symm beside fun item held another _ step => ?_
      exact ⟨step.2 ▸ ih item.1 (List.fst_mem_of_mem_zipIdx held) step.1
        (formed.itemSlot _ _) (Shape.itemSlot_beq same _ _), step.2.symm⟩
    obtain ⟨placed, paired, back⟩ := (order.of_beq same).exists_results turned
    exact rearranged_array.2 ⟨placed, items, rfl, size ▸ paired, back.symm⟩
  | object members ih =>
    obtain ⟨arranged, others, rfl, paired, order⟩ := rearranged_object.1 rearranged
    have turned : List.Forall₂ (fun member another => member.1 = another.1 ∧
        Rearranged (other.memberSlot member.1) member.2 another.2) arranged members := by
      refine Paired.symm paired fun member held another _ step => ?_
      have slot := Shape.memberSlot_beq formed same member.1
      exact ⟨step.1.symm, step.1 ▸ ih member held step.2 slot.1 slot.2⟩
    obtain ⟨placed, paired, back⟩ := List.perm_comp_forall₂ order.symm turned
    exact rearranged_object.2 ⟨placed, members, rfl, paired, back⟩

/-- Rearranging keeps keys distinct. -/
theorem Rearranged.wellFormed (rearranged : Rearranged shape document again)
    (distinct : document.WellFormed) : again.WellFormed := by
  induction document generalizing shape again with
  | array items ih =>
    obtain ⟨arranged, others, rfl, paired, order⟩ := rearranged_array.1 rearranged
    rw [Json.wellFormed_array] at distinct ⊢
    intro item held
    obtain ⟨source, there, step⟩ := Paired.exists_left paired (order.perm.mem_iff.2 held)
    have inside := List.fst_mem_of_mem_zipIdx there
    exact ih source.1 inside step (distinct source.1 inside)
  | object members ih =>
    obtain ⟨arranged, others, rfl, paired, order⟩ := rearranged_object.1 rearranged
    rw [Json.wellFormed_object] at distinct ⊢
    have names := Entries.keys_eq_iff.2 (paired.imp fun _ _ step => step.1)
    refine ⟨(Entries.distinct_perm order).1 ?_, fun member held => ?_⟩
    · rw [Entries.Distinct, ← names]
      exact distinct.1
    · obtain ⟨source, there, step⟩ := Paired.exists_left paired (order.mem_iff.2 held)
      exact ih source there step.2 (distinct.2 source there)
  | _ => cases rearranged; exact distinct

end Containers

/-! ## Values that are assembled from the same parts -/

section Assembly

variable {shape other element : Shape} {value : Value}

/-- Items that are unified are unified in every order. -/
theorem Unified.perm {items others : List Value} (unified : Unified shape items element)
    (order : items.Perm others) : Unified shape others element := by
  refine unified.imp_right fun ⟨untyped, shared, source⟩ => ⟨untyped, ?_, ?_⟩
  · exact fun item held => shared item (order.mem_iff.2 held)
  · simpa only [order.mem_iff] using source

/-- Equal members in another order are unified to an equal element shape. -/
theorem exists_unify_same {values arranged backs : List Value} {found steps : List (Step × Value)}
    (formed : shape.WellFormed) (known : ∀ value ∈ values, value.WellFormed)
    (backsFormed : ∀ back ∈ backs, back.WellFormed) (same : shape == other)
    (parts : List.Forall₂ Same values arranged) (order : arranged.Perm backs)
    (members : found.map Prod.snd = values) (unified : unify shape found = .ok element)
    (others : steps.map Prod.snd = backs) :
    ∃ again, unify other steps = .ok again ∧ element == again := by
  subst members
  have rule := unify_ok known unified
  obtain ⟨sources, placed, moved⟩ := List.perm_comp_forall₂ order.symm
    (Paired.symm (S := fun back value => Same value back) parts fun _ _ _ _ same => same)
  have alike : List.Forall₂ Alike sources backs :=
    Paired.symm placed fun _ _ _ _ same => Same.alike same
  exact exists_unify_alike (rule.wellFormed formed known) (rule.perm moved.symm) (.inl same) alike
    backsFormed others

/-- Equal values are equal members once their nulls are given equal shapes. -/
theorem retyped_same {values arranged : List Value} {again : Shape}
    (parts : List.Forall₂ Same values arranged) (equal : element == again) :
    List.Forall₂ Same (values.map (retypeNull element)) (arranged.map (retypeNull again)) :=
  forall₂_retypeNull (Paired.imp parts fun _ _ _ _ same => same.alike) equal

/-- Equal items make up the same value where nothing is declared. -/
theorem inferSequence_same {values backs : List Value}
    (known : ∀ value ∈ values, value.WellFormed) (formed : ∀ back ∈ backs, back.WellFormed)
    (same : List.Forall₂ Same values backs) :
    Same (inferSequence values) (inferSequence backs) := by
  have alike : List.Forall₂ Alike values backs := Paired.imp same fun _ _ _ _ same => same.alike
  rcases inferSequence_cases known with
    ⟨element, shared, inferred, ⟨item, held, present⟩, made⟩ | ⟨none, made⟩
  · obtain ⟨back, there, turned⟩ := Paired.exists_right alike held
    obtain ⟨again, found⟩ := exists_sharedShape? (inferred.wellFormed known)
      (inferred.1.alike alike) there (turned.1 ▸ present)
    have equal := inferred.alike (infers_of_sharedShape? formed found).1 alike
    rw [made, inferSequence, found]
    exact .list equal (retyped_same same equal)
  · rw [made, inferSequence, sharedShape?_eq_none known formed same none]
    exact .tuple same

/-- Equal items, in an order that the shape allows, make up the same value under an equal shape. -/
theorem FromItems.exists_same {values arranged backs : List Value}
    (made : FromItems shape values value) (formed : shape.WellFormed)
    (known : ∀ value ∈ values, value.WellFormed)
    (backsFormed : ∀ back ∈ backs, back.WellFormed) (same : shape == other)
    (parts : List.Forall₂ Same values arranged) (order : shape.Arranges arranged backs) :
    ∃ back, FromItems other backs back ∧ Same value back := by
  cases made with
  | list unified =>
    obtain ⟨inner, rfl, equal⟩ := (Shape.list_beq _ _).1 same
    obtain rfl : arranged = backs := order
    obtain ⟨again, unifies, shapes⟩ := exists_unify_same ((Shape.wellFormed_list _).1 formed)
      known backsFormed equal parts (.refl _) (map_snd_indexed _) unified (map_snd_indexed _)
    exact ⟨_, .list unifies, .list shapes (retyped_same parts shapes)⟩
  | set unified =>
    obtain ⟨inner, rfl, equal⟩ := (Shape.set_beq _ _).1 same
    obtain ⟨again, unifies, shapes⟩ := exists_unify_same ((Shape.wellFormed_set _).1 formed)
      known backsFormed equal parts order (map_snd_indexed _) unified (map_snd_indexed _)
    exact ⟨_, .set unifies, .set shapes (retyped_same parts shapes) (order.perm.map _)⟩
  | tuple fits =>
    obtain ⟨slots, rfl, equal⟩ := (Shape.tuple_beq _ _).1 same
    obtain rfl : arranged = backs := order
    refine ⟨_, .tuple ?_, .tuple parts⟩
    simpa only [broadcasts, equal.length_eq, parts.length_eq] using fits
  | sequence =>
    obtain rfl := (Shape.dynamic_beq _).1 same
    obtain rfl : arranged = backs := order
    exact ⟨_, .sequence _, inferSequence_same known backsFormed parts⟩

/-- The attributes that equal entries lack under equal shapes are equal nulls. -/
theorem missingAttributes_same {attributes declared : List (String × Shape)}
    {entries backs : List (String × Value)}
    (aligned : Entries.Aligned (fun a b => a == b) attributes declared)
    (names : ∀ name, (Entries.get? entries name).isNone = (Entries.get? backs name).isNone) :
    Entries.Aligned Same (missingAttributes attributes entries)
      (missingAttributes declared backs) := by
  rw [missingAttributes, missingAttributes, Entries.Aligned, List.forall₂_map_left_iff,
    List.forall₂_map_right_iff]
  refine (List.rel_filter ?_ aligned).imp fun _ _ step => ⟨step.1, .null step.2⟩
  rintro a b ⟨same, -⟩
  simp only [same, names]

/-- Equal entries in another order make up the same value under an equal shape. -/
theorem FromEntries.exists_same {entries arranged backs : List (String × Value)}
    (made : FromEntries shape entries value) (formed : shape.WellFormed)
    (distinct : Entries.Distinct entries)
    (known : ∀ value ∈ entries.map Prod.snd, value.WellFormed)
    (backsFormed : ∀ back ∈ backs.map Prod.snd, back.WellFormed) (same : shape == other)
    (parts : Entries.Aligned Same entries arranged) (order : arranged.Perm backs) :
    ∃ back, FromEntries other backs back ∧ Same value back := by
  have names (name : String) : name ∈ Entries.keys entries ↔ name ∈ Entries.keys backs := by
    rw [parts.keys_eq]
    exact (order.map Prod.fst).mem_iff
  have apart : Entries.Distinct backs :=
    (Entries.distinct_perm order).1 (by rwa [Entries.Distinct, ← parts.keys_eq])
  cases made with
  | object attributes =>
    obtain ⟨others, rfl, equal⟩ := (Shape.object_beq _ _).1 same
    rw [Shape.wellFormed_object] at formed
    obtain ⟨declared, aligned, moved⟩ := equal.exists_aligned formed.1
    have missing := missingAttributes_same aligned fun name =>
      Entries.isNone_get?_eq (names name)
    refine ⟨_, .object others backs, (object_same _ _).2 ⟨_, rfl, ?_⟩⟩
    exact Entries.Aligned.corresponds_of_perm (List.rel_append parts missing) (.refl _)
      (order.append ((moved.filter _).map _)) (distinct_missingAttributes formed.1 distinct)
      (distinct_missingAttributes ((equal.keys_perm formed.1).nodup_iff.1 formed.1) apart)
  | @map _ element _ unified =>
    obtain ⟨inner, rfl, equal⟩ := (Shape.map_beq _ _).1 same
    obtain ⟨again, unifies, shapes⟩ := exists_unify_same ((Shape.wellFormed_map _).1 formed)
      known backsFormed equal parts.values (order.map Prod.snd) (map_snd_keyed _) unified
      (map_snd_keyed _)
    refine ⟨_, .map unifies, (map_same _ _ _).2 ⟨_, _, rfl, shapes, ?_⟩⟩
    have members : Entries.Aligned Same
        (entries.map fun entry => (entry.1, entry.2.retypeNull element))
        (arranged.map fun entry => (entry.1, entry.2.retypeNull again)) := by
      rw [Entries.Aligned, List.forall₂_map_left_iff, List.forall₂_map_right_iff]
      exact parts.imp fun _ _ same => ⟨same.1, same.2.alike.retypeNull shapes⟩
    exact members.corresponds_of_perm (.refl _) (order.map _)
      (by simpa [Entries.Distinct] using distinct) (by simpa [Entries.Distinct] using apart)
  | record =>
    obtain rfl := (Shape.dynamic_beq _).1 same
    exact ⟨_, .record _, (object_same _ _).2
      ⟨_, rfl, parts.corresponds_of_perm (.refl _) order distinct apart⟩⟩

end Assembly

/-! ## Rearranged documents -/

section Reading

variable {document again : Json} {shape other : Shape} {value : Value}

/-- What is read of the items of an array, each in its slot, is well-formed. -/
theorem forall_wellFormed_slots {items : List Json} {values : List Value} {count : Nat}
    (distinct : ∀ item ∈ items, item.WellFormed) (formed : shape.WellFormed)
    (parts : List.Forall₂
      (fun item value => Reads item.1 (shape.itemSlot count item.2) value) items.zipIdx values) :
    ∀ value ∈ values, value.WellFormed := by
  intro value held
  obtain ⟨item, there, read⟩ := Paired.exists_left parts held
  exact read.wellFormed (distinct item.1 (List.fst_mem_of_mem_zipIdx there))
    (formed.itemSlot count item.2)

/-- What is read of the members of an object, each in its slot, is well-formed. -/
theorem ReadsMember.wellFormed {members : List (String × Json)} {entries : List (String × Value)}
    (distinct : ∀ member ∈ members, member.2.WellFormed) (formed : shape.WellFormed)
    (parts : List.Forall₂ (ReadsMember shape.memberSlot?) members entries) :
    ∀ value ∈ entries.map Prod.snd, value.WellFormed := by
  refine List.forall_mem_map.2 fun entry held => ?_
  obtain ⟨member, there, -, slot, declared, read⟩ := Paired.exists_left parts held
  obtain ⟨_, -, known, -⟩ := Shape.exists_memberSlot? formed (Shape.beq_refl formed) declared
  exact read.wellFormed (distinct member there) known

/-- A member that is rearranged in place reads as the same entry under an equal shape. -/
theorem ReadsMember.rearranged {member another : String × Json} {entry : String × Value}
    (read : ReadsMember shape.memberSlot? member entry) (formed : shape.WellFormed)
    (same : shape == other)
    (placed : member.1 = another.1 ∧ Rearranged (shape.memberSlot member.1) member.2 another.2)
    (each : ∀ slot next : Shape, slot.WellFormed → slot == next → Reads member.2 slot entry.2 →
      Rearranged slot member.2 another.2 → ReadsBack entry.2 another.2 next) :
    ∃ back : String × Value, ReadsMember other.memberSlot? another back ∧
      (entry.1 = back.1 ∧ Same entry.2 back.2) := by
  obtain ⟨named, slot, declared, read⟩ := read
  obtain ⟨name, own⟩ := placed
  rw [Shape.memberSlot_eq, declared] at own
  obtain ⟨next, found, known, equal⟩ := Shape.exists_memberSlot? formed same declared
  obtain ⟨back, readBack, alike⟩ := each slot next known equal read own
  exact ⟨(another.1, back), ⟨rfl, next, name ▸ found, readBack⟩, named.symm.trans name, alike⟩

/-- A document in another order reads as the same value under an equal shape. -/
theorem Reads.rearranged (read : Reads document shape value) (distinct : document.WellFormed)
    (formed : shape.WellFormed) (same : shape == other)
    (rearranged : Rearranged shape document again) : ReadsBack value again other := by
  induction document generalizing shape other value again with
  | null =>
    cases rearranged
    obtain rfl := (reads_null _ _).1 read
    exact readsBack_null same
  | bool known =>
    cases rearranged
    obtain ⟨kind, rfl⟩ := (reads_bool _ _ _).1 read
    have place := scalar_under Shape.bool_beq kind (.inl same)
    exact ⟨_, (reads_bool _ _ _).2 ⟨place, rfl⟩, .bool known⟩
  | number known =>
    cases rearranged
    obtain ⟨kind, rfl⟩ := (reads_number _ _ _).1 read
    have place := scalar_under Shape.number_beq kind (.inl same)
    exact ⟨_, (reads_number _ _ _).2 ⟨place, rfl⟩, .number _⟩
  | text known =>
    cases rearranged
    rcases (reads_text _ _ _).1 read with ⟨kind, rfl⟩ | ⟨rfl, n, numeral, rfl⟩
    · have place := scalar_under Shape.string_beq kind (.inl same)
      exact ⟨_, (reads_text _ _ _).2 (.inl ⟨place, rfl⟩), .text known⟩
    · have place := (Shape.number_beq _).1 same
      exact ⟨_, (reads_text _ _ _).2 (.inr ⟨place, n, numeral, rfl⟩), .number n⟩
  | array items ih =>
    have apart := rearranged.wellFormed distinct
    obtain ⟨arranged, others, rfl, size, beside, order⟩ := rearranged.exists_beside
    obtain ⟨values, parts, made⟩ := reads_array.1 read
    rw [Json.wellFormed_array] at distinct apart
    -- first the items in place, each in its slot of the other shape
    have each : List.Forall₂
        (fun value item => ReadsBack value item.1 (other.itemSlot items.length item.2))
        values arranged.zipIdx := by
      refine Paired.trans parts.flip beside fun value _ item held another _ read step => ?_
      exact step.2 ▸ ih item.1 (List.fst_mem_of_mem_zipIdx held)
        read (distinct item.1 (List.fst_mem_of_mem_zipIdx held)) (formed.itemSlot _ _)
        (Shape.itemSlot_beq same _ _) step.1
    obtain ⟨backs, reads, alike⟩ := Paired.exists_between each
    -- then all of them in the other order
    obtain ⟨moved, placed, moves⟩ := (order.of_beq same).exists_results
      (R := fun slot item value => Reads item slot value) reads
    have known := forall_wellFormed_slots distinct formed parts
    have movedFormed := forall_wellFormed_slots apart (formed.of_beq same) placed
    obtain ⟨back, makes, equal⟩ := made.exists_same formed known movedFormed same alike
      (moves.of_beq (Shape.beq_symm formed same))
    exact ⟨back, reads_array.2 ⟨moved, size ▸ placed, makes⟩, equal⟩
  | object members ih =>
    have apart := rearranged.wellFormed distinct
    obtain ⟨arranged, others, rfl, paired, order⟩ := rearranged_object.1 rearranged
    obtain ⟨entries, parts, made⟩ := reads_members.1 read
    rw [Json.wellFormed_object] at distinct apart
    have each : List.Forall₂ (fun (entry : String × Value) member => ∃ back : String × Value,
        ReadsMember other.memberSlot? member back ∧ (entry.1 = back.1 ∧ Same entry.2 back.2))
        entries arranged := by
      refine Paired.trans parts.flip paired fun _ _ member held _ _ read step => ?_
      exact ReadsMember.rearranged read formed same step fun _ _ formed same read own =>
        ih member held read (distinct.2 member held) formed same own
    obtain ⟨backs, reads, alike⟩ := Paired.exists_between each
    obtain ⟨moved, placed, moves⟩ := List.perm_comp_forall₂ order.symm reads
    have known := ReadsMember.wellFormed distinct.2 formed parts
    have movedFormed := ReadsMember.wellFormed apart.2 (formed.of_beq same) placed
    have names : Entries.Distinct entries := by
      rw [Entries.Distinct, ← ReadsMember.keys_eq parts]
      exact distinct.1
    obtain ⟨back, makes, equal⟩ := made.exists_same formed names known movedFormed same alike
      moves.symm
    exact ⟨back, reads_members.2 ⟨moved, placed, makes⟩, equal⟩

end Reading

/--
Orders without a meaning never change a conversion. Under equal shapes, documents that differ only
in the order of the members of objects and of the items of sets are both read, as equal values, or
both fail. And a single document fails under both shapes at the same path, for a cause of the same
kind.
-/
theorem ofJson_rearranged {document : Json} {shape other : Shape} (distinct : document.WellFormed)
    (formed : shape.WellFormed) (same : shape == other) (path : Path) :
    (∀ again, Rearranged shape document again →
      (∃ value back, ofJson document shape path = .ok value ∧ ofJson again other path = .ok back ∧
          value == back) ∨
        ∃ error failure, ofJson document shape path = .error error ∧
          ofJson again other path = .error failure) ∧
    ∀ error, ofJson document shape path = .error error →
      ∃ failure, ofJson document other path = .error failure ∧ failure.path = error.path ∧
        error.cause.SameKind failure.cause := by
  refine ⟨fun again rearranged => ?_, fun _ => ofJson_error_of_beq distinct formed same⟩
  have apart := rearranged.wellFormed distinct
  have otherFormed := formed.of_beq same
  cases converted : ofJson document shape path with
  | ok value =>
    have read : Reads document shape value := reads_of_ofJson converted
    obtain ⟨back, readBack, alike⟩ := read.rearranged distinct formed same rearranged
    have equal := (beq_iff_same (read.wellFormed distinct formed)
      (readBack.wellFormed apart otherFormed)).2 alike
    exact .inl ⟨value, back, rfl, readBack path, equal⟩
  | error error =>
    cases again' : ofJson again other path with
    | error failure => exact .inr ⟨error, failure, rfl, rfl⟩
    | ok back =>
      have read : Reads again other back := reads_of_ofJson again'
      obtain ⟨value, readBack, -⟩ := read.rearranged apart otherFormed
        (Shape.beq_symm formed same) (rearranged.turned formed same)
      rw [readBack path] at converted
      cases converted

/-- A set of a null and a record, and a set of ports, one of them a numeral. -/
def hostDocument : Json :=
  .object [("marks", .array [.null, .object [("on", .bool true), ("name", .text "a")]]),
    ("ports", .array [.number (.int 443), .text "80"])]

/-- The same document in another order, wherever the order says nothing. -/
def hostRearranged : Json :=
  .object [("ports", .array [.text "80", .number (.int 443)]),
    ("marks", .array [.object [("name", .text "a"), ("on", .bool true)], .null])]

/-- A shape of two sets, of which one says nothing about its elements. -/
def hostShape : Shape := .object [("ports", .set .number), ("marks", .set .dynamic)]

/-- The same shape with its attributes in another order. -/
def hostOther : Shape := .object [("marks", .set .dynamic), ("ports", .set .number)]

/-- The two documents differ in the order of members and of set elements alone. -/
theorem host_rearranged : Rearranged hostShape hostDocument hostRearranged := by
  have record : Rearranged .dynamic (.object [("on", .bool true), ("name", .text "a")])
      (.object [("name", .text "a"), ("on", .bool true)]) :=
    rearranged_object.2 ⟨_, _, rfl, .cons ⟨rfl, .bool _ _⟩ (.cons ⟨rfl, .text _ _⟩ .nil),
      .swap _ _ _⟩
  have marks : Rearranged (.set .dynamic)
      (.array [.null, .object [("on", .bool true), ("name", .text "a")]])
      (.array [.object [("name", .text "a"), ("on", .bool true)], .null]) :=
    rearranged_array.2 ⟨_, _, rfl, .cons (.null _) (.cons record .nil), .swap _ _ _⟩
  have ports : Rearranged (.set .number) (.array [.number (.int 443), .text "80"])
      (.array [.text "80", .number (.int 443)]) :=
    rearranged_array.2 ⟨_, _, rfl, .cons (.number _ _) (.cons (.text _ _) .nil), .swap _ _ _⟩
  refine rearranged_object.2 ⟨[("marks", _), ("ports", _)], _, rfl, ?_, .swap _ _ _⟩
  have first : hostShape.memberSlot "marks" = .set .dynamic := by cbv
  have second : hostShape.memberSlot "ports" = .set .number := by cbv
  exact .cons ⟨rfl, first ▸ marks⟩ (.cons ⟨rfl, second ▸ ports⟩ .nil)

/-- In both orders the document is read, and as the same value. -/
theorem host_read_alike :
    ∃ value back, ofJson hostDocument hostShape .root = .ok value ∧
      ofJson hostRearranged hostOther .root = .ok back ∧ value == back := by
  have distinct : hostDocument.WellFormed := by simp [hostDocument, Entries.Distinct]
  have formed : hostShape.WellFormed := by simp [hostShape, Entries.Distinct]
  have same : hostShape == hostOther := by cbv
  obtain ⟨orders, -⟩ := ofJson_rearranged distinct formed same .root
  have converted : (ofJson hostDocument hostShape .root).isOk = true := by cbv
  rcases orders hostRearranged host_rearranged with read | ⟨error, _, failed, _⟩
  · exact read
  · rw [failed] at converted
    cases converted

end Value
end TypedTree
