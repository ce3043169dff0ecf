import TypedTree.Proofs.Value.Equality

/-!
# The comparison decides equality

The comparison of two sets removes a match for each element in turn and never takes one back. No
choice of a match can spoil the rest: when two elements compete for one match, all of them are
equal, so a match that is taken away can be exchanged for the one that is left (`Same.cancel`).
-/

namespace TypedTree.Value

/-- Items are equal when they are equal one by one. -/
theorem beqItems_iff (as bs : List Value) :
    beqItems as bs = true ↔ List.Forall₂ (fun a b => beq a b = true) as bs := by
  induction as generalizing bs with
  | nil => cases bs <;> simp [beqItems]
  | cons a as ih => cases bs <;> simp [beqItems, ih]

/-- The comparison of entries compares their number and looks every one of them up by name. -/
theorem beqEntries_iff (as bs : List (String × Value)) :
    (as.length == bs.length && beqEntries as bs) = true ↔
      Entries.Corresponds (fun a b => beq a b = true) as bs := by
  have lookups : beqEntries as bs = true ↔ ∀ entry ∈ as, ∃ value,
      Entries.get? bs entry.1 = some value ∧ beq entry.2 value = true := by
    induction as with
    | nil => simp [beqEntries]
    | cons entry rest ih =>
      cases found : Entries.get? bs entry.1 <;> simp [beqEntries, ih, found]
  simp [Entries.Corresponds, lookups]

/-- What is removed satisfies the test, and together with the rest it makes up the list. -/
theorem removeFirst?_eq_some {α : Type} {test : α → Bool} {items rest : List α}
    (removed : removeFirst? test items = some rest) :
    ∃ item, test item = true ∧ items.Perm (item :: rest) := by
  induction items generalizing rest with
  | nil => simp [removeFirst?] at removed
  | cons first others ih =>
    by_cases hit : test first = true
    · simp only [removeFirst?, hit, ↓reduceIte, Option.some.injEq] at removed
      subst removed
      exact ⟨first, hit, .refl _⟩
    · simp only [removeFirst?, hit, Bool.false_eq_true, ↓reduceIte, Option.map_eq_some_iff]
        at removed
      obtain ⟨remaining, removed, rfl⟩ := removed
      obtain ⟨item, passes, order⟩ := ih removed
      exact ⟨item, passes, (order.cons first).trans (.swap item first remaining)⟩

/-- Something is removed when an item satisfies the test. -/
theorem exists_removeFirst? {α : Type} {test : α → Bool} {items : List α} {item : α}
    (held : item ∈ items) (passes : test item = true) :
    ∃ rest, removeFirst? test items = some rest := by
  induction items with
  | nil => cases held
  | cons first others ih =>
    by_cases hit : test first = true
    · exact ⟨others, by simp [removeFirst?, hit]⟩
    · rcases List.mem_cons.1 held with rfl | held
      · exact absurd passes hit
      · obtain ⟨rest, removed⟩ := ih held
        exact ⟨first :: rest, by simp [removeFirst?, hit, removed]⟩

/-- Elements that all find a match are equal to the matches in the order in which they are found. -/
theorem exists_arrangement {as bs : List Value} (matching : beqUnordered as bs = true)
    (size : as.length = bs.length) :
    ∃ arranged, List.Forall₂ (fun a b => beq a b = true) as arranged ∧ arranged.Perm bs := by
  induction as generalizing bs with
  | nil =>
    obtain rfl := List.eq_nil_of_length_eq_zero size.symm
    exact ⟨[], .nil, .refl _⟩
  | cons a as ih =>
    cases removed : removeFirst? (beq a) bs with
    | none => simp [beqUnordered, removed] at matching
    | some rest =>
      obtain ⟨b, equal, order⟩ := removeFirst?_eq_some removed
      simp only [beqUnordered, removed] at matching
      obtain ⟨arranged, parts, others⟩ := ih matching (by simpa [order.length_eq] using size)
      exact ⟨b :: arranged, .cons equal parts, (others.cons b).trans order.symm⟩

/--
From two arrangements of equal elements one equal pair can be taken away, whichever elements were
paired before: what the removed match was paired with takes the match that became free.
-/
theorem Same.cancel {a x : Value} {as bs arranged : List Value} (left : a.WellFormed)
    (right : x.WellFormed) (same : Same a x) (parts : List.Forall₂ Same (a :: as) arranged)
    (order : arranged.Perm (x :: bs)) :
    ∃ others, List.Forall₂ Same as others ∧ others.Perm bs := by
  obtain _ | @⟨_, c, _, rest, first, parts⟩ := parts
  rcases List.mem_cons.1 (order.mem_iff.2 List.mem_cons_self) with rfl | held
  · exact ⟨rest, parts, order.cons_inv⟩
  · obtain ⟨before, after, rfl⟩ := List.append_of_mem held
    have exchange : Same x c := (same.symm left right).trans first
    have replaced : List.Forall₂ (fun u v => u = v ∨ Same u v) (before ++ x :: after)
        (before ++ c :: after) :=
      List.rel_append (List.forall₂_same.2 fun _ _ => .inl rfl)
        (.cons (.inr exchange) (List.forall₂_same.2 fun _ _ => .inl rfl))
    refine ⟨before ++ c :: after, Paired.trans parts replaced ?_, ?_⟩
    · rintro u - v - w - reached (rfl | step)
      · exact reached
      · exact reached.trans step
    · have moved : (x :: c :: (before ++ after)).Perm (x :: bs) :=
        (List.Perm.swap c x _).trans ((List.perm_middle.symm.cons c).trans order)
      exact List.perm_middle.trans moved.cons_inv

/-- Elements that equal those of the other set in some arrangement all find a match. -/
theorem beqUnordered_of_arranged {as bs arranged : List Value}
    (left : ∀ a ∈ as, a.WellFormed) (right : ∀ b ∈ bs, b.WellFormed)
    (decides : ∀ a ∈ as, ∀ b ∈ bs, beq a b = true ↔ Same a b)
    (parts : List.Forall₂ Same as arranged) (order : arranged.Perm bs) :
    beqUnordered as bs = true := by
  induction as generalizing bs arranged with
  | nil => rfl
  | cons a as ih =>
    obtain ⟨c, held, first⟩ := Paired.exists_right parts List.mem_cons_self
    have inside := order.mem_iff.1 held
    obtain ⟨rest, removed⟩ :=
      exists_removeFirst? inside ((decides a List.mem_cons_self c inside).2 first)
    obtain ⟨b, equal, remains⟩ := removeFirst?_eq_some removed
    have member : b ∈ bs := remains.mem_iff.2 List.mem_cons_self
    have among : ∀ other ∈ rest, other ∈ bs := fun other there =>
      remains.mem_iff.2 (List.mem_cons_of_mem b there)
    obtain ⟨others, parts, order⟩ := Same.cancel (left a List.mem_cons_self) (right b member)
      ((decides a List.mem_cons_self b member).1 equal) parts (order.trans remains)
    simp only [beqUnordered, removed]
    exact ih (fun other there => left other (List.mem_cons_of_mem a there))
      (fun other there => right other (among other there))
      (fun u hu v hv => decides u (List.mem_cons_of_mem a hu) v (among v hv)) parts order

/-- On well-formed values the comparison decides equality. -/
theorem beq_iff_same {a b : Value} (left : a.WellFormed) (right : b.WellFormed) :
    a == b ↔ Same a b := by
  change beq a b = true ↔ Same a b
  induction a generalizing b with
  | null declared | unknown declared => cases b <;> simp [beq]
  | text known | bool known | number known =>
    cases b <;> simp [beq, @eq_comm _ known]
  | list element items ih =>
    cases b with
    | list other others =>
      simp only [wellFormed_list] at left right
      have members := fun a ha b hb => ih a ha (left.2 a ha) (right.2 b hb)
      simp only [beq, Bool.and_eq_true, beqItems_iff, list_same, list.injEq]
      constructor
      · rintro ⟨shapes, parts⟩
        exact ⟨_, _, ⟨rfl, rfl⟩, shapes, Paired.imp parts fun a ha b hb => (members a ha b hb).1⟩
      · rintro ⟨_, _, ⟨rfl, rfl⟩, shapes, parts⟩
        exact ⟨shapes, Paired.imp parts fun a ha b hb => (members a ha b hb).2⟩
    | _ => simp [beq]
  | tuple items ih =>
    cases b with
    | tuple others =>
      simp only [wellFormed_tuple] at left right
      have members := fun a ha b hb => ih a ha (left a ha) (right b hb)
      simp only [beq, beqItems_iff, tuple_same, tuple.injEq, exists_eq_left']
      exact ⟨fun parts => Paired.imp parts fun a ha b hb => (members a ha b hb).1,
        fun parts => Paired.imp parts fun a ha b hb => (members a ha b hb).2⟩
    | _ => simp [beq]
  | set element items ih =>
    cases b with
    | set other others =>
      simp only [wellFormed_set] at left right
      have members := fun a ha b hb => ih a ha (left.2 a ha) (right.2 b hb)
      simp only [beq, Bool.and_eq_true, beq_iff_eq, set_same, set.injEq]
      constructor
      · rintro ⟨⟨shapes, size⟩, matching⟩
        obtain ⟨arranged, parts, order⟩ := exists_arrangement matching size
        exact ⟨_, _, ⟨rfl, rfl⟩, shapes, arranged,
          Paired.imp parts fun a ha b hb => (members a ha b (order.mem_iff.1 hb)).1, order⟩
      · rintro ⟨_, _, ⟨rfl, rfl⟩, shapes, arranged, parts, order⟩
        exact ⟨⟨shapes, parts.length_eq.trans order.length_eq⟩,
          beqUnordered_of_arranged left.2 right.2 members parts order⟩
    | _ => simp [beq]
  | map element entries ih =>
    cases b with
    | map other others =>
      simp only [wellFormed_map] at left right
      have members := fun a ha b hb => ih a ha (left.2.2 a ha) (right.2.2 b hb)
      rw [beq, Bool.and_assoc, Bool.and_eq_true, beqEntries_iff]
      simp only [map_same, map.injEq]
      constructor
      · rintro ⟨shapes, parts⟩
        exact ⟨_, _, ⟨rfl, rfl⟩, shapes, parts.imp fun a ha b hb => (members a ha b hb).1⟩
      · rintro ⟨_, _, ⟨rfl, rfl⟩, shapes, parts⟩
        exact ⟨shapes, parts.imp fun a ha b hb => (members a ha b hb).2⟩
    | _ => simp [beq]
  | object entries ih =>
    cases b with
    | object others =>
      simp only [wellFormed_object] at left right
      have members := fun a ha b hb => ih a ha (left.2 a ha) (right.2 b hb)
      simp only [beq, beqEntries_iff, object_same, object.injEq, exists_eq_left']
      exact ⟨fun parts => parts.imp fun a ha b hb => (members a ha b hb).1,
        fun parts => parts.imp fun a ha b hb => (members a ha b hb).2⟩
    | _ => simp [beq]

end TypedTree.Value
