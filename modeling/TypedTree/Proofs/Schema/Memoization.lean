import TypedTree.Proofs.Schema.Unmemoized

/-!
# Resolution with a memo table

Every shape in the table is one that resolution without a table finds for some node of its key,
within some budget. A shape that is found in the table may lie beyond the budget of the call, and
the nodes below it spend no budget of their own. So an outcome tracks resolution without a table:
what is definite on either side is the same on the other, only that the table may do with less
budget.
-/

namespace TypedTree.Schema

/-- Related results, or one and the same error. -/
inductive Similar {α β : Type} (related : α → β → Prop) :
    Except SchemaError α → Except SchemaError β → Prop
  | ok {a : α} {b : β} : related a b → Similar related (.ok a) (.ok b)
  | error (cause : SchemaError) : Similar related (.error cause) (.error cause)

/-- More budget does not change what was definite. -/
def Steady {α : Type} (free : Nat → Except SchemaError α) : Prop :=
  ∀ budget larger, budget ≤ larger → Definite (free budget) → free larger = free budget

/--
An outcome that is borne out by what is resolved freely: if it is definite, at some budget, and if
the given budget is sufficient for that, at the given budget.
-/
structure Tracks {α β : Type} (related : α → β → Prop) (free : Nat → Except SchemaError α)
    (budget : Nat) (outcome : Except SchemaError β) : Prop where
  settles : Definite outcome → ∃ larger, Similar related (free larger) outcome
  complete : Definite (free budget) → Similar related (free budget) outcome

section Tracking

variable {α β γ δ : Type} {related : α → β → Prop} {free : Nat → Except SchemaError α}
  {budget : Nat} {outcome : Except SchemaError β}

namespace Similar

variable {first : Except SchemaError α}

/-- What is similar to something definite is definite. -/
theorem definite (similar : Similar related first outcome) (definite : Definite outcome) :
    Definite first := by
  cases similar with
  | ok _ => exact .ok _
  | error cause => exact definite.error

/-- What is similar to a result is a result. -/
theorem ok_right {b : β} (similar : Similar related first (.ok b)) :
    ∃ a, first = .ok a ∧ related a b := by
  cases similar with
  | ok same => exact ⟨_, rfl, same⟩

/-- What a result is similar to is a result. -/
theorem ok_left {a : α} (similar : Similar related (.ok a) outcome) :
    ∃ b, outcome = .ok b ∧ related a b := by
  cases similar with
  | ok same => exact ⟨_, rfl, same⟩

/-- What is similar to an error is that error. -/
theorem error_right {cause : SchemaError} (similar : Similar related first (.error cause)) :
    first = .error cause := by
  cases similar
  rfl

/-- What an error is similar to is that error. -/
theorem error_left {cause : SchemaError} (similar : Similar related (.error cause) outcome) :
    outcome = .error cause := by
  cases similar
  rfl

end Similar

/-- What is made of steady outcomes is steady. -/
theorem Steady.map (steady : Steady free) (make : α → γ) :
    Steady fun budget => (free budget).map make := by
  intro budget larger more definite
  simp only [steady budget larger more (Definite.map_iff.1 definite)]

/-- Outcomes that are definite within two budgets are the same. -/
theorem Steady.unique (steady : Steady free) {first second : Nat}
    (left : Definite (free first)) (right : Definite (free second)) :
    free first = free second := by
  have more := steady first (max first second) (Nat.le_max_left _ _) left
  exact more.symm.trans (steady second (max first second) (Nat.le_max_right _ _) right)

namespace Tracks

/-- A result tracks what gives a related one whatever the budget. -/
theorem ok {a : α} {b : β} (same : related a b) :
    Tracks related (fun _ => .ok a) budget (.ok b) :=
  ⟨fun _ => ⟨0, .ok same⟩, fun _ => .ok same⟩

/-- An error tracks itself. -/
theorem error (cause : SchemaError) :
    Tracks related (fun _ => .error cause) budget (.error cause) :=
  ⟨fun _ => ⟨0, .error cause⟩, fun _ => .error cause⟩

/-- A result tracks outcomes of which one, within any budget, is related to it. -/
theorem of_eq_ok (steady : Steady free) {larger : Nat} {a : α} {b : β}
    (found : free larger = .ok a) (same : related a b) :
    Tracks related free budget (.ok b) := by
  have sufficient : Definite (free larger) := found ▸ Definite.ok a
  refine ⟨fun _ => ⟨larger, found ▸ .ok same⟩, fun definite => ?_⟩
  rw [steady.unique definite sufficient, found]
  exact .ok same

/-- What is made of an outcome tracks what is made of those that it tracks. -/
theorem map {made : γ → δ → Prop} {left : α → γ} {right : β → δ}
    (tracks : Tracks related free budget outcome)
    (step : ∀ a b, related a b → made (left a) (right b)) :
    Tracks made (fun budget => (free budget).map left) budget (outcome.map right) := by
  have similar {first : Except SchemaError α} (same : Similar related first outcome) :
      Similar made (first.map left) (outcome.map right) := by
    cases same with
    | ok same => exact .ok (step _ _ same)
    | error cause => exact .error cause
  refine ⟨fun definite => ?_, fun definite => ?_⟩
  · obtain ⟨larger, same⟩ := tracks.settles (Definite.map_iff.1 definite)
    exact ⟨larger, similar same⟩
  · exact similar (tracks.complete (Definite.map_iff.1 definite))

/-- An error of the first step is one of both. -/
theorem bind_error {other : γ → δ → Prop} {cause : SchemaError}
    {next : Nat → α → Except SchemaError γ} (tracks : Tracks related free budget (.error cause)) :
    Tracks other (fun budget => (free budget).bind (next budget)) budget (.error cause) := by
  have stops {larger : Nat} (same : Similar related (free larger) (.error cause)) :
      (free larger).bind (next larger) = .error cause := by
    rw [same.error_right]
    rfl
  refine ⟨fun definite => ?_, fun definite => ?_⟩
  · obtain ⟨larger, same⟩ := tracks.settles definite.error
    exact ⟨larger, stops same ▸ .error cause⟩
  · rw [stops (tracks.complete definite.of_bind)]
    exact .error cause

/-- After a first step with a result the second step decides. -/
theorem bind_ok {other : γ → δ → Prop} {b : β} {next : Nat → α → Except SchemaError γ}
    {last : Except SchemaError δ} (tracks : Tracks related free budget (.ok b))
    (steady : Steady free)
    (step : ∀ a, related a b → Steady (next · a) ∧ Tracks other (next · a) budget last) :
    Tracks other (fun budget => (free budget).bind (next budget)) budget last := by
  refine ⟨fun definite => ?_, fun definite => ?_⟩
  · obtain ⟨first, found⟩ := tracks.settles (.ok b)
    obtain ⟨a, own, same⟩ := found.ok_right
    obtain ⟨nextSteady, rest⟩ := step a same
    obtain ⟨second, similar⟩ := rest.settles definite
    -- both steps are done within the larger one of their budgets
    have enough : free (max first second) = .ok a :=
      (steady _ _ (Nat.le_max_left _ _) (own ▸ Definite.ok a)).trans own
    have after : next (max first second) a = next second a :=
      nextSteady _ _ (Nat.le_max_right _ _) (similar.definite definite)
    refine ⟨max first second, ?_⟩
    rw [enough]
    change Similar other (next (max first second) a) last
    rw [after]
    exact similar
  · obtain ⟨a, own, same⟩ := (tracks.complete definite.of_bind).ok_right
    rw [own] at definite ⊢
    exact (step a same).2.complete definite

end Tracks
end Tracking

/-! ## Forms -/

section Forms

variable {σ : Type} {free : Nat → Node → Path → Except SchemaError Shape} {holds : σ → Prop}
  {budget : Nat} {next : Node → Path → σ → Outcome σ}

/--
A node is resolved, from any state that holds, to an outcome that tracks its free resolution, and
the state behind it holds.
-/
def Follows (free : Nat → Node → Path → Except SchemaError Shape) (holds : σ → Prop) (budget : Nat)
    (next : Node → Path → σ → Outcome σ) (node : Node) : Prop :=
  ∀ path state, holds state →
    Tracks (fun a b => a == b) (free · node path) budget (next node path state).1 ∧
      holds (next node path state).2

namespace Form

/-- The shapes of properties are tracked, under their names and in their order. -/
theorem attributes_follow (path : Path) (properties : List (String × Node))
    (extension : ∀ budget larger, budget ≤ larger → Extends (free larger) (free budget))
    (parts : ∀ entry ∈ properties, Follows free holds budget next entry.2) (state : σ)
    (before : holds state) :
    Tracks (fun as bs => Entries.keys as = Entries.keys properties ∧
        Entries.Aligned (fun a b => a == b) as bs)
      (fun budget => attributesFreely (free budget) path properties) budget
      (attributes next path state properties).1 ∧
    holds (attributes next path state properties).2 := by
  induction properties generalizing state with
  | nil => exact ⟨.ok ⟨rfl, .nil⟩, before⟩
  | cons property rest ih =>
    obtain ⟨name, node⟩ := property
    have one := parts (name, node) List.mem_cons_self (path.push (.attr name)) state before
    obtain ⟨first, middle⟩ := one
    simp only [attributesFreely_cons]
    cases found : next node (path.push (.attr name)) state with
    | mk outcome after =>
      rw [found] at first middle
      cases outcome with
      | error cause =>
        rw [attributes_cons_error found]
        exact ⟨first.bind_error, middle⟩
      | ok shape =>
        obtain ⟨others, last⟩ :=
          ih (fun entry held => parts entry (List.mem_cons_of_mem _ held)) after middle
        rw [attributes_cons_ok found]
        refine ⟨first.bind_ok ?_ fun own same => ⟨?_, ?_⟩, last⟩
        · exact fun _ _ more => extension _ _ more node _
        · refine Steady.map (fun _ _ more => ?_) _
          exact (extension _ _ more).attributesFreely rest
        · refine others.map fun as bs aligned => ⟨?_, ?_⟩
          · simp [aligned.1]
          · exact .cons ⟨rfl, same⟩ aligned.2

/-- The shape of a form is tracked when those of its parts are. -/
theorem shape_follow {form : Form} (formed : form.WellFormed)
    (extension : ∀ budget larger, budget ≤ larger → Extends (free larger) (free budget))
    (parts : ∀ part ∈ form.parts, Follows free holds budget next part) (path : Path) (state : σ)
    (before : holds state) :
    Tracks (fun a b => a == b) (fun budget => form.freely (free budget) path) budget
      (form.shape next path state).1 ∧ holds (form.shape next path state).2 := by
  cases form with
  | settled shape =>
    cases formed with
    | settled formed => exact ⟨.ok (Shape.beq_refl formed), before⟩
  | same node => exact parts node List.mem_cons_self path state before
  | list items =>
    obtain ⟨part, after⟩ := parts items List.mem_cons_self _ state before
    exact ⟨part.map fun a b same => (Shape.list_beq _ _).2 ⟨b, rfl, same⟩, after⟩
  | sequence items =>
    obtain ⟨part, after⟩ := parts items List.mem_cons_self _ state before
    exact ⟨part.map fun a b same => (Shape.tuple_beq _ _).2 ⟨[b], rfl, .cons same .nil⟩, after⟩
  | map values =>
    obtain ⟨part, after⟩ := parts values List.mem_cons_self _ state before
    exact ⟨part.map fun a b same => (Shape.map_beq _ _).2 ⟨b, rfl, same⟩, after⟩
  | object properties =>
    cases formed with
    | object distinct formed =>
      obtain ⟨attributes, after⟩ := attributes_follow path properties extension
        (fun entry held => parts entry.2 (List.mem_map_of_mem held)) state before
      rw [shape_object]
      simp only [freely_object]
      refine ⟨attributes.map fun as bs aligned => ?_, after⟩
      have named : Entries.Distinct as := by rw [Entries.Distinct, aligned.1]; exact distinct
      exact (Shape.object_beq _ _).2 ⟨bs, rfl, aligned.2.corresponds named⟩
  | fault cause => exact ⟨.error _, before⟩

end Form
end Forms

/-! ## The table -/

section Kept

variable {κ : Type} [DecidableEq κ] [Digest κ] {definitions : List (String × Node)}
  {reached : Node → Prop} {node : Node} {path : Path} {budget : Nat} {cache : Memo κ Shape}

/--
Nodes that are closed under the steps of resolution and have distinct names, and of which only those
share a key that agree.
-/
structure Separated (κ : Type) [Digest κ] (definitions : List (String × Node))
    (reached : Node → Prop) : Prop where
  table : ∀ entry ∈ definitions, entry.2.WellFormed
  wellFormed : ∀ node, reached node → node.WellFormed
  parts : ∀ node, reached node → ∀ part ∈ (node.form definitions).parts, reached part
  agree : ∀ a b, reached a → reached b → (a.key : κ) = b.key → a.Agrees b

/-- Every shape in a table equals one that some node of its key has. -/
def Sound (definitions : List (String × Node)) (reached : Node → Prop) (cache : Memo κ Shape) :
    Prop :=
  ∀ key shape, cache.get? key = some shape → ∃ node, reached node ∧ node.key = key ∧
    ∃ budget own, node.Gives definitions budget own ∧ own == shape

/-- The table without entries is sound. -/
theorem Sound.empty : Sound definitions reached (.empty : Memo κ Shape) :=
  fun _ _ found => nomatch found

/-- A shape that is found for a node equals one that the node has. -/
theorem Sound.found (sound : Sound definitions reached cache)
    (separated : Separated κ definitions reached) (met : reached node) {shape : Shape}
    (found : cache.get? node.key = some shape) :
    ∃ budget own, node.Gives definitions budget own ∧ own == shape := by
  obtain ⟨other, otherMet, same, budget, first, given, kept⟩ := sound _ _ found
  have formed := separated.wellFormed other otherMet
  obtain ⟨own, again, equal⟩ :=
    given.of_agrees separated.table formed (separated.agree _ _ otherMet met same)
  have turned := Shape.beq_symm (given.wellFormed separated.table formed) equal
  exact ⟨budget, own, again, Shape.beq_trans turned kept⟩

/-- Free resolution of a node is steady. -/
theorem resolveFreely_steady (node : Node) (path : Path) :
    Steady (resolveFreely definitions · node path) :=
  fun _ _ more => resolveFreely_extends more node path

/-- A shape tracks the free resolution of a node that has an equal one. -/
theorem Tracks.of_gives {larger : Nat} {own shape : Shape}
    (given : node.Gives definitions larger own) (same : own == shape) :
    Tracks (fun a b => a == b) (resolveFreely definitions · node path) budget (.ok shape) :=
  .of_eq_ok (resolveFreely_steady node path) ((resolveFreely_eq_ok larger node path own).2 given)
    same

/-- An outcome within one step more, as one of what the step leads to. -/
theorem Tracks.succ {α β : Type} {related : α → β → Prop} {free : Nat → Except SchemaError α}
    {outcome : Except SchemaError β}
    (tracks : Tracks related (fun budget => free (budget + 1)) budget outcome) :
    Tracks related free (budget + 1) outcome :=
  ⟨fun definite => (tracks.settles definite).imp' Nat.succ fun _ similar => similar,
    tracks.complete⟩

/-- The kept shape tracks what the found one tracks, and the table stays sound. -/
theorem keep_follow (separated : Separated κ definitions reached) (met : reached node)
    {outcome : Outcome (Memo κ Shape)}
    (tracks : Tracks (fun a b => a == b) (resolveFreely definitions · node path) budget outcome.1)
    (sound : Sound definitions reached outcome.2) :
    Tracks (fun a b => a == b) (resolveFreely definitions · node path) budget
      (keep node outcome).1 ∧ Sound definitions reached (keep node outcome).2 := by
  obtain ⟨outcome, cache⟩ := outcome
  cases outcome with
  | error cause => exact ⟨tracks, sound⟩
  | ok shape =>
    have own : ∃ larger own, node.Gives definitions larger own ∧
        own == (cache.store node.key shape).1 := by
      cases present : cache.get? node.key with
      | some kept => simpa [Memo.store, present] using sound.found separated met present
      | none =>
        obtain ⟨larger, similar⟩ := tracks.settles (.ok shape)
        obtain ⟨own, found, same⟩ := similar.ok_right
        exact ⟨larger, own, (resolveFreely_eq_ok _ _ _ _).1 found, by simpa [Memo.store, present]⟩
    obtain ⟨larger, own, given, same⟩ := own
    refine ⟨.of_gives given same, fun key held found => ?_⟩
    rw [keep, Memo.get?_store] at found
    split at found
    · rename_i here
      obtain rfl := Option.some.inj found
      exact ⟨node, met, here, larger, own, given, same⟩
    · exact sound key held found

/-- Resolution with a sound table tracks free resolution and leaves a sound table. -/
theorem resolveAt_follows (separated : Separated κ definitions reached) (budget : Nat)
    {node : Node} (met : reached node) :
    Follows (resolveFreely definitions) (Sound definitions reached (κ := κ)) budget
      (resolveAt definitions budget) node := by
  induction budget generalizing node with
  | zero =>
    intro path cache sound
    exact ⟨⟨fun definite => absurd definite (Definite.not_overrun _),
      fun definite => absurd definite (Definite.not_overrun _)⟩, sound⟩
  | succ budget ih =>
    intro path cache sound
    rw [resolveAt]
    split
    · rename_i found
      obtain ⟨larger, own, given, same⟩ := sound.found separated met found
      exact ⟨.of_gives given same, sound⟩
    · have formed := (separated.wellFormed node met).form separated.table
      obtain ⟨tracks, after⟩ := Form.shape_follow formed
        (fun _ _ more => resolveFreely_extends more)
        (fun part held => ih (separated.parts node met part held)) path cache sound
      exact keep_follow separated met (Tracks.succ tracks) after

end Kept
end TypedTree.Schema
