import Mathlib.Data.List.Forall2
import Mathlib.Data.List.Perm.Basic

/-!
# Lists that are related member by member

Steps on relations between the members of two lists, where the step is known only for the members
themselves, as an induction on nested data gives it.
-/

namespace TypedTree.Paired

variable {α β γ : Type} {R : α → β → Prop} {as : List α} {bs : List β}

/-- A consequence of the relation that holds for the members holds for the lists. -/
theorem imp {S : α → β → Prop} (paired : List.Forall₂ R as bs)
    (step : ∀ a ∈ as, ∀ b ∈ bs, R a b → S a b) : List.Forall₂ S as bs := by
  induction paired with
  | nil => exact .nil
  | cons first _ ih =>
    exact .cons (step _ List.mem_cons_self _ List.mem_cons_self first)
      (ih fun a ha b hb => step a (List.mem_cons_of_mem _ ha) b (List.mem_cons_of_mem _ hb))

/-- A relation that can be turned round for the members can be turned round for the lists. -/
theorem symm {S : β → α → Prop} (paired : List.Forall₂ R as bs)
    (turn : ∀ a ∈ as, ∀ b ∈ bs, R a b → S b a) : List.Forall₂ S bs as :=
  (imp (S := fun a b => S b a) paired turn).flip

/-- Relations that follow each other for the members follow each other for the lists. -/
theorem trans {S : β → γ → Prop} {T : α → γ → Prop} {cs : List γ}
    (paired : List.Forall₂ R as bs) (following : List.Forall₂ S bs cs)
    (join : ∀ a ∈ as, ∀ b ∈ bs, ∀ c ∈ cs, R a b → S b c → T a c) : List.Forall₂ T as cs := by
  induction paired generalizing cs with
  | nil => cases following; exact .nil
  | cons first _ ih =>
    obtain _ | ⟨second, following⟩ := following
    exact .cons
      (join _ List.mem_cons_self _ List.mem_cons_self _ List.mem_cons_self first second)
      (ih following fun a ha b hb c hc => join a (List.mem_cons_of_mem _ ha) b
        (List.mem_cons_of_mem _ hb) c (List.mem_cons_of_mem _ hc))

/-- What is related to the members of two lists is related to the pairs of their members. -/
theorem zip {S : α → γ → Prop} {T : α → β × γ → Prop} {cs : List γ}
    (paired : List.Forall₂ R as bs) (other : List.Forall₂ S as cs)
    (join : ∀ a ∈ as, ∀ b ∈ bs, ∀ c ∈ cs, R a b → S a c → T a (b, c)) :
    List.Forall₂ T as (bs.zip cs) := by
  induction paired generalizing cs with
  | nil => cases other; exact .nil
  | cons first _ ih =>
    obtain _ | ⟨second, other⟩ := other
    exact .cons
      (join _ List.mem_cons_self _ List.mem_cons_self _ List.mem_cons_self first second)
      (ih other fun a ha b hb c hc => join a (List.mem_cons_of_mem _ ha) b
        (List.mem_cons_of_mem _ hb) c (List.mem_cons_of_mem _ hc))

/-- Lists that are related to related lists are related member by member. -/
theorem across {δ : Type} {S : β → δ → Prop} {T : γ → δ → Prop} {U : α → γ → Prop} {cs : List γ}
    {ds : List δ} (left : List.Forall₂ R as bs) (right : List.Forall₂ T cs ds)
    (between : List.Forall₂ S bs ds)
    (join : ∀ a ∈ as, ∀ c ∈ cs, ∀ b d, R a b → S b d → T c d → U a c) : List.Forall₂ U as cs := by
  have far : List.Forall₂ (fun a d => ∃ b, R a b ∧ S b d) as ds :=
    trans left between fun _ _ b _ _ _ near step => ⟨b, near, step⟩
  refine trans far (symm (S := fun d c => T c d) right fun _ _ _ _ step => step) ?_
  rintro a held d - c there ⟨b, near, step⟩ last
  exact join a held c there b d near step last

/-- Related lists stay related when the same list is put beside both. -/
theorem zip_beside {slots : List γ} (paired : List.Forall₂ R as bs) :
    List.Forall₂ (fun a b => R a.1 b.1 ∧ a.2 = b.2) (as.zip slots) (bs.zip slots) := by
  induction paired generalizing slots with
  | nil => simp
  | cons first _ ih =>
    cases slots with
    | nil => simp
    | cons slot slots => exact .cons ⟨first, rfl⟩ ih

/-- What two lists together are related to can be cut where the first of them ends. -/
theorem exists_append {others : List α} (paired : List.Forall₂ R (as ++ others) bs) :
    ∃ front back, bs = front ++ back ∧ List.Forall₂ R as front ∧ List.Forall₂ R others back := by
  have front := (List.forall₂_take_append _ _ _ paired.flip).flip
  have back := (List.forall₂_drop_append _ _ _ paired.flip).flip
  exact ⟨bs.take as.length, bs.drop as.length, (List.take_append_drop _ _).symm, front, back⟩

/-- The members at one position are related. -/
theorem at_position (paired : List.Forall₂ R as bs) {position : Nat} {a : α} {b : β}
    (left : as[position]? = some a) (right : bs[position]? = some b) : R a b := by
  induction paired generalizing position with
  | nil => simp at left
  | cons first _ ih =>
    cases position with
    | zero =>
      obtain rfl : _ = a := by simpa using left
      obtain rfl : _ = b := by simpa using right
      exact first
    | succ position => exact ih (by simpa using left) (by simpa using right)

/-- Lists are related when they are of one length and related at every position. -/
theorem positions_iff :
    List.Forall₂ R as bs ↔ as.length = bs.length ∧
      ∀ (position : Nat) (a : α) (b : β), as[position]? = some a → bs[position]? = some b →
        R a b := by
  refine ⟨fun paired => ⟨paired.length_eq, fun _ _ _ => at_position paired⟩, ?_⟩
  rintro ⟨size, each⟩
  refine List.forall₂_iff_get.2 ⟨size, fun position left right => ?_⟩
  exact each position _ _ (List.getElem?_eq_getElem left) (List.getElem?_eq_getElem right)

/-- Where the relation depends on the position, the positions may be put beside both lists. -/
theorem zipIdx_iff {S : Nat → α → β → Prop} (position : Nat) :
    List.Forall₂ (fun a b => S a.2 a.1 b.1 ∧ a.2 = b.2) (as.zipIdx position)
        (bs.zipIdx position) ↔
      List.Forall₂ (fun a b => S a.2 a.1 b) (as.zipIdx position) bs := by
  induction as generalizing bs position with
  | nil => cases bs <;> simp
  | cons a as ih => cases bs <;> simp [ih]

/-- A member on the left is related to some member on the right. -/
theorem exists_right (paired : List.Forall₂ R as bs) {a : α} (held : a ∈ as) :
    ∃ b ∈ bs, R a b := by
  induction paired with
  | nil => cases held
  | cons first _ ih =>
    rcases List.mem_cons.1 held with rfl | held
    · exact ⟨_, List.mem_cons_self, first⟩
    · obtain ⟨b, heldRight, related⟩ := ih held
      exact ⟨b, List.mem_cons_of_mem _ heldRight, related⟩

/-- A member on the right is related to some member on the left. -/
theorem exists_left (paired : List.Forall₂ R as bs) {b : β} (held : b ∈ bs) :
    ∃ a ∈ as, R a b :=
  exists_right (R := flip R) (symm paired fun _ _ _ _ related => related) held

/-- A relation that is a matter of the left members alone holds when it holds of all of those. -/
theorem forall_iff {S : α → β → Prop} {holds : α → Prop} (paired : List.Forall₂ R as bs)
    (step : ∀ a ∈ as, ∀ b ∈ bs, R a b → (S a b ↔ holds a)) :
    List.Forall₂ S as bs ↔ ∀ a ∈ as, holds a := by
  induction paired with
  | nil => simp
  | @cons a b as bs first _ ih =>
    rw [List.forall₂_cons, List.forall_mem_cons,
      step a List.mem_cons_self b List.mem_cons_self first,
      ih fun a ha b hb => step a (List.mem_cons_of_mem _ ha) b (List.mem_cons_of_mem _ hb)]

/-- A property of the right members that is one of the left members holds of all together. -/
theorem members_iff {right : β → Prop} {left : α → Prop} (paired : List.Forall₂ R as bs)
    (step : ∀ a ∈ as, ∀ b ∈ bs, R a b → (right b ↔ left a)) :
    (∀ b ∈ bs, right b) ↔ ∀ a ∈ as, left a := by
  induction paired with
  | nil => simp
  | @cons a b as bs first _ ih =>
    rw [List.forall_mem_cons, List.forall_mem_cons,
      step a List.mem_cons_self b List.mem_cons_self first,
      ih fun a ha b hb => step a (List.mem_cons_of_mem _ ha) b (List.mem_cons_of_mem _ hb)]

/-- A property of the right members that is one of the left members is had by some of both. -/
theorem exists_iff {right : β → Prop} {left : α → Prop} (paired : List.Forall₂ R as bs)
    (step : ∀ a ∈ as, ∀ b ∈ bs, R a b → (right b ↔ left a)) :
    (∃ b ∈ bs, right b) ↔ ∃ a ∈ as, left a := by
  induction paired with
  | nil => simp
  | @cons a b as bs first _ ih =>
    rw [List.exists_mem_cons_iff, List.exists_mem_cons_iff,
      step a List.mem_cons_self b List.mem_cons_self first,
      ih fun a ha b hb => step a (List.mem_cons_of_mem _ ha) b (List.mem_cons_of_mem _ hb)]

/-- Where every member on the left has a related one, a list of them is related to the list. -/
theorem exists_of_forall (each : ∀ a ∈ as, ∃ b, R a b) : ∃ bs, List.Forall₂ R as bs := by
  induction as with
  | nil => exact ⟨[], .nil⟩
  | cons a as ih =>
    obtain ⟨b, first⟩ := each a List.mem_cons_self
    obtain ⟨bs, others⟩ := ih fun a held => each a (List.mem_cons_of_mem _ held)
    exact ⟨b :: bs, .cons first others⟩

/-- Where every two paired members have a third between them, the lists have one. -/
theorem exists_between {S : β → γ → Prop} {T : α → γ → Prop}
    (paired : List.Forall₂ (fun a b => ∃ c, S b c ∧ T a c) as bs) :
    ∃ cs, List.Forall₂ S bs cs ∧ List.Forall₂ T as cs := by
  induction paired with
  | nil => exact ⟨[], .nil, .nil⟩
  | cons first _ ih =>
    obtain ⟨c, right, left⟩ := first
    obtain ⟨cs, rights, lefts⟩ := ih
    exact ⟨c :: cs, .cons right rights, .cons left lefts⟩

/-- A list of what is made of things related to the members is made of a list of such things. -/
theorem exists_map_iff {S : α → γ → Prop} {make : γ → β} (holds : List β → Prop) :
    (∃ bs, List.Forall₂ (fun a b => ∃ c, S a c ∧ make c = b) as bs ∧ holds bs) ↔
      ∃ cs, List.Forall₂ S as cs ∧ holds (cs.map make) := by
  constructor
  · rintro ⟨bs, paired, made⟩
    obtain ⟨cs, same, own⟩ := exists_between (paired.imp fun _ _ ⟨c, own, same⟩ => ⟨c, same, own⟩)
    have spelled : bs = cs.map make := by
      rw [← List.forall₂_eq_eq_eq, List.forall₂_map_right_iff]
      exact same.imp fun _ _ same => same.symm
    exact ⟨cs, own, spelled ▸ made⟩
  · rintro ⟨cs, paired, made⟩
    exact ⟨_, List.forall₂_map_right_iff.2 (paired.imp fun _ c own => ⟨c, own, rfl⟩), made⟩

end TypedTree.Paired
