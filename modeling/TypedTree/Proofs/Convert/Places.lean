import Mathlib.Data.List.Infix
import TypedTree.Convert.Error
import TypedTree.Proofs.Paired

/-!
# Places in depth-first order

A conversion visits the parts of a whole in depth-first order and stops at the first part that is at
fault. `Traversal` lists the places of a whole in that order, each with the steps to it, and
`Reports` says that an outcome is the one which the first fault on such a list calls for. The steps
of a reported error follow the path at which the conversion was started, whatever that path is.
-/

namespace TypedTree

open ConvertError (Cause)

/-- The path continued by further steps. -/
def Path.under (path : Path) (steps : List Step) : Path := ⟨path.steps ++ steps⟩

@[simp]
theorem Path.under_nil (path : Path) : path.under [] = path := by
  rw [under, List.append_nil]

@[simp]
theorem Path.under_push (path : Path) (step : Step) (steps : List Step) :
    (path.push step).under steps = path.under (step :: steps) := by
  rw [under, under, push, List.append_assoc, List.singleton_append]

/-- A step put in behind a path comes before the steps that continue the path. -/
theorem Path.insertedAt_under (path : Path) (steps : List Step) (step : Step) :
    (path.under steps).insertedAt path.length step = path.under (step :: steps) := by
  simp [under, insertedAt, length]

/-- What stands at some steps, seen from one step further out. -/
def below {β : Type} (step : Step) (place : List Step × β) : List Step × β :=
  (step :: place.1, place.2)

/--
The parts of a whole in their order, each with the step to it. Parts are smaller than their whole,
so that the places of a whole are finitely many.
-/
structure Traversal (β : Type) where
  parts : β → List (Step × β)
  smaller : ∃ size : β → Nat, ∀ whole, ∀ part ∈ parts whole, size part.2 < size whole

namespace Traversal

variable {β : Type} (traversal : Traversal β) {whole : β}

/-- The places of a whole in depth-first order: first the whole, then the places of each part. -/
def places (whole : β) : List (List Step × β) :=
  ([], whole) :: (traversal.parts whole).attach.flatMap fun part =>
    (places part.1.2).map (below part.1.1)
termination_by traversal.smaller.choose whole
decreasing_by exact traversal.smaller.choose_spec whole _ part.2

/-- The places of parts, each part addressed by its step. -/
def placesOf (parts : List (Step × β)) : List (List Step × β) :=
  parts.flatMap fun part => (traversal.places part.2).map (below part.1)

theorem places_eq (whole : β) :
    traversal.places whole = ([], whole) :: traversal.placesOf (traversal.parts whole) := by
  have own := List.attach_map_subtype_val (traversal.parts whole)
  conv_rhs => rw [placesOf, ← own, List.flatMap_map]
  rw [places]

@[simp]
theorem placesOf_nil : traversal.placesOf [] = [] := rfl

@[simp]
theorem placesOf_cons (part : Step × β) (rest : List (Step × β)) :
    traversal.placesOf (part :: rest) =
      (traversal.places part.2).map (below part.1) ++ traversal.placesOf rest :=
  List.flatMap_cons

variable {traversal}

/-- A whole stands at its own first place. -/
theorem self_mem : ([], whole) ∈ traversal.places whole := by
  rw [places_eq]
  exact List.mem_cons_self

/-- What stands without a step is the whole. -/
theorem nil_mem {place : β} : ([], place) ∈ traversal.places whole ↔ place = whole := by
  rw [places_eq]
  simp [placesOf, below]

/-- A place of a part is addressed through the step to the part. -/
theorem mem_map_below {step : Step} {steps : List Step} {place : β} {part : Step × β}
    {inside : List (List Step × β)} :
    (step :: steps, place) ∈ inside.map (below part.1) ↔
      step = part.1 ∧ (steps, place) ∈ inside := by
  simp only [List.mem_map, below, Prod.mk.injEq, List.cons.injEq]
  constructor
  · rintro ⟨⟨_, _⟩, held, ⟨rfl, rfl⟩, rfl⟩
    exact ⟨rfl, held⟩
  · rintro ⟨rfl, held⟩
    exact ⟨(steps, place), held, ⟨rfl, rfl⟩, rfl⟩

/-- What stands behind a step stands in a part to which the step leads. -/
theorem cons_mem {step : Step} {steps : List Step} {place : β} :
    (step :: steps, place) ∈ traversal.places whole ↔
      ∃ part, (step, part) ∈ traversal.parts whole ∧ (steps, place) ∈ traversal.places part := by
  rw [places_eq, List.mem_cons, placesOf, List.mem_flatMap]
  constructor
  · rintro (same | ⟨⟨_, part⟩, held, there⟩)
    · cases same
    · obtain ⟨rfl, inside⟩ := mem_map_below.1 there
      exact ⟨part, held, inside⟩
  · rintro ⟨part, held, inside⟩
    exact .inr ⟨(step, part), held, mem_map_below.2 ⟨rfl, inside⟩⟩

/-- Somewhere in a whole a place has a property. -/
def Somewhere (traversal : Traversal β) (holds : β → Prop) (whole : β) : Prop :=
  ∃ place ∈ traversal.places whole, holds place.2

/-- What is somewhere in a whole is the whole itself, or somewhere in a part. -/
theorem somewhere_iff {holds : β → Prop} :
    traversal.Somewhere holds whole ↔
      holds whole ∨ ∃ part ∈ traversal.parts whole, traversal.Somewhere holds part.2 := by
  constructor
  · rintro ⟨⟨steps, place⟩, held, own⟩
    cases steps with
    | nil =>
      obtain rfl := nil_mem.1 held
      exact .inl own
    | cons step steps =>
      obtain ⟨part, inside, there⟩ := cons_mem.1 held
      exact .inr ⟨(step, part), inside, (steps, place), there, own⟩
  · rintro (own | ⟨part, inside, ⟨steps, place⟩, held, own⟩)
    · exact ⟨([], whole), self_mem, own⟩
    · exact ⟨(part.1 :: steps, place), cons_mem.2 ⟨part.2, inside, held⟩, own⟩

/-- In a whole without parts there is only the whole itself. -/
theorem somewhere_alone {holds : β → Prop} (alone : traversal.parts whole = []) :
    traversal.Somewhere holds whole ↔ holds whole := by
  rw [somewhere_iff, alone]
  simp

/-- The places of a place are places of the whole. -/
theorem mem_trans {steps further : List Step} {place inner : β}
    (here : (steps, place) ∈ traversal.places whole)
    (inside : (further, inner) ∈ traversal.places place) :
    (steps ++ further, inner) ∈ traversal.places whole := by
  induction steps generalizing whole with
  | nil =>
    obtain rfl := nil_mem.1 here
    exact inside
  | cons step steps ih =>
    obtain ⟨part, held, there⟩ := cons_mem.1 here
    exact cons_mem.2 ⟨part, held, ih there⟩

/--
As `mem_before` says it of a whole, of its parts: the later place is in a later part than the
earlier one, or in the same.
-/
theorem mem_before_parts {parts : List (Step × β)} {before after : List (List Step × β)}
    {step : Step} {steps front further : List Step} {place early inner : β}
    (each : ∀ part before after steps, traversal.places part = before ++ (steps, place) :: after →
      (front, early) ∈ before → ¬ front <+: steps → (front ++ further, inner) ∈ before)
    (split : traversal.placesOf parts = before ++ (steps, place) :: after)
    (earlier : (step :: front, early) ∈ before) (apart : ¬ step :: front <+: steps)
    (inside : (further, inner) ∈ traversal.places early) :
    (step :: (front ++ further), inner) ∈ before := by
  induction parts generalizing before with
  | nil =>
    rw [placesOf_nil] at split
    exact absurd split.symm (by simp)
  | cons part rest ih =>
    rw [placesOf_cons] at split
    -- the places of the first part are closed under places of places
    have carried (here : (step :: front, early) ∈ (traversal.places part.2).map (below part.1)) :
        (step :: (front ++ further), inner) ∈ (traversal.places part.2).map (below part.1) := by
      obtain ⟨same, there⟩ := mem_map_below.1 here
      exact mem_map_below.2 ⟨same, mem_trans there inside⟩
    rcases List.append_eq_append_iff.1 split with ⟨back, rfl, later⟩ | ⟨back, own, later⟩
    · rcases List.mem_append.1 earlier with here | there
      · exact List.mem_append_left _ (carried here)
      · exact List.mem_append_right _ (ih later there)
    · cases back with
      | nil =>
        rw [List.append_nil] at own
        rw [own] at carried
        exact carried earlier
      | cons next back =>
        obtain ⟨rfl, -⟩ := List.cons.inj later
        obtain ⟨front', back', parted, rfl, rest'⟩ := List.map_eq_append_iff.1 own
        obtain ⟨⟨steps', place'⟩, _, rfl, moved, -⟩ := List.map_eq_cons_iff.1 rest'
        obtain ⟨rfl, rfl⟩ := Prod.mk.inj moved
        obtain ⟨rfl, there⟩ := mem_map_below.1 earlier
        have apart' : ¬ front <+: steps' := fun shorter =>
          apart (List.cons_prefix_cons.2 ⟨rfl, shorter⟩)
        exact mem_map_below.2 ⟨rfl, each part.2 _ _ _ parted there apart'⟩

/--
All of what stands inside an earlier place comes before a later place that is not inside it. The
induction is on the steps to the earlier place.
-/
theorem mem_before {before after : List (List Step × β)} {steps front further : List Step}
    {place early inner : β} (split : traversal.places whole = before ++ (steps, place) :: after)
    (earlier : (front, early) ∈ before) (apart : ¬ front <+: steps)
    (inside : (further, inner) ∈ traversal.places early) :
    (front ++ further, inner) ∈ before := by
  induction front generalizing whole before after steps with
  | nil => exact absurd List.nil_prefix apart
  | cons step front ih =>
    rw [places_eq] at split
    cases before with
    | nil => cases earlier
    | cons first before =>
      obtain ⟨rfl, parted⟩ := List.cons.inj split
      rcases List.mem_cons.1 earlier with same | held
      · cases same
      · apply List.mem_cons_of_mem
        exact mem_before_parts (fun _ _ _ _ own here apart => ih own here apart) parted held apart
          inside

/-- Places at the same steps, one by one, where what stands there is related. -/
abbrev Parallel (related : β → β → Prop) : List (List Step × β) → List (List Step × β) → Prop :=
  List.Forall₂ fun place other => place.1 = other.1 ∧ related place.2 other.2

/--
Wholes whose parts are related, one by one behind the same steps, have related places. The induction
is on the size of the one whole.
-/
theorem places_parallel {related : β → β → Prop}
    (parts : ∀ a b, related a b → List.Forall₂ (fun part other => part.1 = other.1 ∧
      related part.2 other.2) (traversal.parts a) (traversal.parts b)) {whole other : β}
    (start : related whole other) :
    Parallel related (traversal.places whole) (traversal.places other) := by
  obtain ⟨size, smaller⟩ := traversal.smaller
  induction measured : size whole using Nat.strong_induction_on generalizing whole other with
  | _ bound ih =>
    have inside : List.Forall₂ (fun part other => part.1 = other.1 ∧
        Parallel related (traversal.places part.2) (traversal.places other.2))
        (traversal.parts whole) (traversal.parts other) :=
      Paired.imp (parts whole other start) fun part held _ _ step =>
        ⟨step.1, ih _ (measured ▸ smaller whole part held) step.2 rfl⟩
    rw [places_eq, places_eq]
    refine .cons ⟨rfl, start⟩ (List.rel_flatMap inside fun part other step => ?_)
    rw [List.forall₂_map_left_iff, List.forall₂_map_right_iff]
    exact step.2.imp fun _ _ same => ⟨congrArg₂ List.cons step.1 same.1, same.2⟩

end Traversal

/-! ## The first fault -/

section Faults

variable {β α γ : Type} {fault? : β → Option Cause}

/-- The first fault on a list of places, and the steps to it. -/
def firstFault? (fault? : β → Option Cause) (places : List (List Step × β)) :
    Option (List Step × Cause) :=
  places.findSome? fun place => (fault? place.2).map fun cause => (place.1, cause)

@[simp]
theorem firstFault?_cons (place : List Step × β) (rest : List (List Step × β)) :
    firstFault? fault? (place :: rest) =
      ((fault? place.2).map fun cause => (place.1, cause)).or (firstFault? fault? rest) := by
  rw [firstFault?, List.findSome?_cons]
  cases fault? place.2 <;> rfl

@[simp]
theorem firstFault?_append (front back : List (List Step × β)) :
    firstFault? fault? (front ++ back) =
      (firstFault? fault? front).or (firstFault? fault? back) :=
  List.findSome?_append

@[simp]
theorem firstFault?_below (step : Step) (places : List (List Step × β)) :
    firstFault? fault? (places.map (below step)) =
      (firstFault? fault? places).map (below step) := by
  induction places with
  | nil => rfl
  | cons place rest ih =>
    rw [List.map_cons, firstFault?_cons, firstFault?_cons, ih]
    cases own : fault? place.2 <;> simp [below, own]

/-- There is no first fault where no place is at fault. -/
theorem firstFault?_eq_none {places : List (List Step × β)} :
    firstFault? fault? places = none ↔ ∀ place ∈ places, fault? place.2 = none := by
  simp [firstFault?]

/-- The first fault is a fault behind places that are not at fault. -/
theorem firstFault?_eq_some {places : List (List Step × β)} {steps : List Step} {cause : Cause} :
    firstFault? fault? places = some (steps, cause) ↔
      ∃ before place after, places = before ++ (steps, place) :: after ∧
        (∀ earlier ∈ before, fault? earlier.2 = none) ∧ fault? place = some cause := by
  rw [firstFault?, List.findSome?_eq_some_iff]
  simp only [Option.map_eq_some_iff, Option.map_eq_none_iff, Prod.mk.injEq]
  constructor
  · rintro ⟨before, ⟨_, place⟩, after, split, ⟨_, own, rfl, rfl⟩, clear⟩
    exact ⟨before, place, after, split, clear, own⟩
  · rintro ⟨before, place, after, split, clear, own⟩
    exact ⟨before, (steps, place), after, split, ⟨cause, own, rfl, rfl⟩, clear⟩

/-- Places whose faults are related have related first faults, at the same steps. -/
theorem firstFault?_parallel {related : β → β → Prop} {kind : Cause → Cause → Prop}
    {places others : List (List Step × β)} (parallel : Traversal.Parallel related places others)
    (each : ∀ a b, related a b → Option.Rel kind (fault? a) (fault? b)) :
    Option.Rel (fun found other => found.1 = other.1 ∧ kind found.2 other.2)
      (firstFault? fault? places) (firstFault? fault? others) := by
  induction parallel with
  | nil => exact .none
  | @cons place other _ _ step _ ih =>
    rw [firstFault?_cons, firstFault?_cons]
    have own := each _ _ step.2
    generalize fault? place.2 = fault, fault? other.2 = again at own
    cases own with
    | none => exact ih
    | some same => exact .some ⟨step.1, same⟩

/-- An outcome at a path is what a found fault, or its absence, calls for. -/
inductive Reports (path : Path) :
    Option (List Step × Cause) → Except ConvertError α → Prop
  | passes (result : α) : Reports path none (.ok result)
  | fails (steps : List Step) (cause : Cause) :
      Reports path (some (steps, cause)) (.error ⟨path.under steps, cause⟩)

namespace Reports

variable {path : Path} {found others : Option (List Step × Cause)}
  {outcome : Except ConvertError α}

/-- A conversion fails with what was found, below the path at which it was started. -/
theorem error_iff (reports : Reports path found outcome) (error : ConvertError) :
    outcome = .error error ↔
      ∃ steps cause, found = some (steps, cause) ∧ error = ⟨path.under steps, cause⟩ := by
  cases reports with
  | passes result => simp
  | fails steps cause => simp [eq_comm]

/-- What is found at the same steps is reported at the same path. -/
theorem parallel {kind : Cause → Cause → Prop} {again : Except ConvertError α}
    (reports : Reports path found outcome) (reported : Reports path others again)
    (same : Option.Rel (fun found other => found.1 = other.1 ∧ kind found.2 other.2) found others)
    {error : ConvertError} (failed : outcome = .error error) :
    ∃ other, again = .error other ∧ other.path = error.path ∧ kind error.cause other.cause := by
  obtain ⟨steps, cause, rfl, rfl⟩ := (reports.error_iff error).1 failed
  cases same with
  | @some _ other step =>
    obtain ⟨rfl, step⟩ := step
    exact ⟨_, (reported.error_iff _).2 ⟨other.1, other.2, rfl, rfl⟩, rfl, step⟩

/-- A conversion succeeds when nothing was found. -/
theorem ok_iff (reports : Reports path found outcome) :
    (∃ result, outcome = .ok result) ↔ found = none := by
  cases reports <;> simp

/-- A fault of the whole is reported at the path itself. -/
theorem here (path : Path) (cause : Cause) :
    Reports (α := α) path (some ([], cause)) (.error ⟨path, cause⟩) := by
  have own : Reports path (some ([], cause)) (.error ⟨path.under [], cause⟩ : Except _ α) :=
    .fails [] cause
  rwa [Path.under_nil] at own

/-- What is reported one step further is reported behind that step. -/
theorem pushed {step : Step} (reports : Reports (path.push step) found outcome) :
    Reports path (found.map (below step)) outcome := by
  cases reports with
  | passes result => exact .passes result
  | fails steps cause =>
    rw [Path.under_push]
    exact .fails (step :: steps) cause

/-- What is reported in a set element is reported behind the step to the element. -/
theorem throughElement (reports : Reports path found outcome) (element : Value) :
    Reports path (found.map (below (.element element)))
      (outcome.mapError (·.throughElement path element)) := by
  cases reports with
  | passes result => exact .passes result
  | fails steps cause =>
    have moved := path.insertedAt_under steps (.element element)
    rw [Except.mapError, ConvertError.throughElement, ConvertError.mapPath, moved]
    exact .fails (.element element :: steps) cause

/-- Of two conversions behind each other the first one that fails is reported. -/
theorem andThen {next : α → Except ConvertError γ} (reports : Reports path found outcome)
    (further : ∀ result, outcome = .ok result → Reports path others (next result)) :
    Reports path (found.or others) (outcome.bind next) := by
  cases reports with
  | passes result => exact further result rfl
  | fails steps cause => exact .fails steps cause

/-- What is made of a result that is reported right is reported right. -/
theorem map (reports : Reports path found outcome) (make : α → γ) :
    Reports path found (outcome.map make) := by
  cases reports with
  | passes result => exact .passes (make result)
  | fails steps cause => exact .fails steps cause

end Reports

end Faults

end TypedTree
