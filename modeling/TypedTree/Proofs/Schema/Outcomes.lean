import TypedTree.Proofs.Schema.Agreement
import TypedTree.Schema.Resolution

/-!
# Outcomes of forms

The parts of a form are resolved one after the other, each from the state that the one before left.
What resolving every part keeps of the state is kept by the form, and the shape of the form is made
of what the parts give. Where a way to resolve parts gives what another one gives, unless the latter
ran out of its budget, the form has the same outcome under both, with the same state behind it.
-/

namespace TypedTree.Schema

/-- An outcome for which the budget was sufficient. -/
def Definite {α : Type} (outcome : Except SchemaError α) : Prop :=
  ∀ path, outcome ≠ .error ⟨path, .recursionOverrun⟩

namespace Definite

variable {α β : Type}

/-- A result is definite. -/
theorem ok (value : α) : Definite (.ok value) := fun _ same => nomatch same

/-- Running out of the budget is not definite. -/
theorem not_overrun (path : Path) :
    ¬ Definite (.error ⟨path, .recursionOverrun⟩ : Except SchemaError α) :=
  fun definite => definite path rfl

/-- An error is definite unless the budget ran out. -/
theorem error_iff {error : SchemaError} :
    Definite (.error error : Except SchemaError α) ↔ error.cause ≠ .recursionOverrun := by
  constructor
  · intro definite overrun
    exact definite error.path (by rw [← overrun])
  · intro other path same
    exact other (by rw [Except.error.inj same])

/-- An error is definite independently of what was wanted. -/
theorem error {error : SchemaError} (definite : Definite (.error error : Except SchemaError α)) :
    Definite (.error error : Except SchemaError β) :=
  error_iff.2 (error_iff.1 definite)

/-- The first of two steps is definite when both together are. -/
theorem of_bind {first : Except SchemaError α} {next : α → Except SchemaError β}
    (definite : Definite (first.bind next)) : Definite first := by
  cases first with
  | ok value => exact ok value
  | error cause => exact error definite

/-- What is made of a result does not matter. -/
theorem map_iff {make : α → β} {outcome : Except SchemaError α} :
    Definite (outcome.map make) ↔ Definite outcome := by
  cases outcome with
  | ok value => exact ⟨fun _ => ok value, fun _ => ok (make value)⟩
  | error cause => exact ⟨error, error⟩

end Definite

/-- A result that is made of another one. -/
theorem map_eq_ok {α β : Type} {make : α → β} {outcome : Except SchemaError α} {result : β} :
    outcome.map make = .ok result ↔ ∃ value, outcome = .ok value ∧ make value = result := by
  cases outcome <;> simp [Except.map]

/-- A result of two steps. -/
theorem bind_eq_ok {α β : Type} {first : Except SchemaError α} {next : α → Except SchemaError β}
    {result : β} :
    first.bind next = .ok result ↔ ∃ value, first = .ok value ∧ next value = .ok result := by
  cases first <;> simp [Except.bind]

/-- The shapes of a form, given those of its parts. -/
inductive Form.Gives (gives : Node → Shape → Prop) : Form → Shape → Prop
  | settled (shape : Shape) : Gives gives (settled shape) shape
  | same {node : Node} {shape : Shape} : gives node shape → Gives gives (same node) shape
  | list {items : Node} {shape : Shape} : gives items shape → Gives gives (list items) (.list shape)
  | sequence {items : Node} {shape : Shape} : gives items shape →
      Gives gives (sequence items) (.tuple [shape])
  | map {values : Node} {shape : Shape} : gives values shape → Gives gives (map values) (.map shape)
  | object {properties : List (String × Node)} {attributes : List (String × Shape)} :
      Entries.Aligned gives properties attributes →
      Gives gives (object properties) (.object attributes)

namespace Form

variable {σ : Type} {next larger : Node → Path → σ → Outcome σ} {holds : σ → Prop}

/-! ## Parts in order -/

/-- Resolving properties ends at the first that has no shape. -/
theorem attributes_cons_error {name : String} {node : Node} {rest : List (String × Node)}
    {path : Path} {state after : σ} {cause : SchemaError}
    (first : next node (path.push (.attr name)) state = (.error cause, after)) :
    attributes next path state ((name, node) :: rest) = (.error cause, after) := by
  simp only [attributes, first]

/-- Behind a property that has a shape the others are resolved. -/
theorem attributes_cons_ok {name : String} {node : Node} {rest : List (String × Node)}
    {path : Path} {state after : σ} {shape : Shape}
    (first : next node (path.push (.attr name)) state = (.ok shape, after)) :
    attributes next path state ((name, node) :: rest) =
      ((attributes next path after rest).1.map fun shapes => (name, shape) :: shapes,
        (attributes next path after rest).2) := by
  simp only [attributes, first]
  generalize attributes next path after rest = outcome
  obtain ⟨outcome, last⟩ := outcome
  cases outcome <;> rfl

/-- The shape of an object form is made of those of its properties. -/
theorem shape_object (properties : List (String × Node)) (path : Path) (state : σ) :
    (object properties).shape next path state =
      ((attributes next path state properties).1.map .object,
        (attributes next path state properties).2) := by
  simp only [shape]
  generalize attributes next path state properties = outcome
  obtain ⟨outcome, last⟩ := outcome
  cases outcome <;> rfl

/-! ## What is kept of the state -/

/-- Resolving properties keeps what resolving each of them keeps. -/
theorem attributes_keeps (properties : List (String × Node))
    (parts : ∀ entry ∈ properties, ∀ path state, holds state → holds (next entry.2 path state).2)
    (path : Path) (state : σ) (before : holds state) :
    holds (attributes next path state properties).2 := by
  induction properties generalizing state with
  | nil => exact before
  | cons property rest ih =>
    obtain ⟨name, node⟩ := property
    have middle := parts (name, node) List.mem_cons_self (path.push (.attr name)) state before
    cases found : next node (path.push (.attr name)) state with
    | mk outcome after =>
      rw [found] at middle
      cases outcome with
      | error cause =>
        rw [attributes_cons_error found]
        exact middle
      | ok shape =>
        rw [attributes_cons_ok found]
        exact ih (fun entry held => parts entry (List.mem_cons_of_mem _ held)) after middle

/-- Resolving a form keeps what resolving each of its parts keeps. -/
theorem shape_keeps (form : Form)
    (parts : ∀ part ∈ form.parts, ∀ path state, holds state → holds (next part path state).2)
    (path : Path) (state : σ) (before : holds state) : holds (form.shape next path state).2 := by
  cases form with
  | settled shape | fault cause => exact before
  | same node | list node | sequence node | map node =>
    exact parts node List.mem_cons_self _ state before
  | object properties =>
    rw [shape_object]
    exact attributes_keeps properties
      (fun entry held => parts entry.2 (List.mem_map_of_mem held)) path state before

/-! ## What is made of parts -/

/--
The shapes of properties are given by the parts, under the same names, in the last state, where what
is given stays given.
-/
theorem attributes_gives (gives : σ → Node → Shape → Prop) {properties : List (String × Node)}
    {shapes : List (String × Shape)}
    (kept : ∀ entry ∈ properties, ∀ path state, holds state → holds (next entry.2 path state).2)
    (stable : ∀ entry ∈ properties, ∀ path state part shape, holds state →
      gives state part shape → gives (next entry.2 path state).2 part shape)
    (parts : ∀ entry ∈ properties, ∀ path state shape after, holds state →
      next entry.2 path state = (.ok shape, after) → gives after entry.2 shape)
    {path : Path} {state after : σ} (before : holds state)
    (found : attributes next path state properties = (.ok shapes, after)) :
    Entries.Aligned (gives after) properties shapes := by
  induction properties generalizing state shapes with
  | nil =>
    cases found
    exact .nil
  | cons property rest ih =>
    obtain ⟨name, node⟩ := property
    obtain ⟨keptHere, keptThere⟩ := List.forall_mem_cons.1 kept
    obtain ⟨_, stableThere⟩ := List.forall_mem_cons.1 stable
    obtain ⟨here, others⟩ := List.forall_mem_cons.1 parts
    cases own : next node (path.push (.attr name)) state with
    | mk outcome middle =>
      cases outcome with
      | error cause =>
        rw [attributes_cons_error own] at found
        cases found
      | ok shape =>
        have between : holds middle := by
          have behind := keptHere (path.push (.attr name)) state before
          rwa [own] at behind
        rw [attributes_cons_ok own, Prod.mk.injEq, map_eq_ok] at found
        obtain ⟨⟨rest, later, rfl⟩, last⟩ := found
        -- the first shape is still given when the others have been resolved
        have first := here _ _ shape middle before own
        have still := @attributes_keeps σ next (fun state => holds state ∧ gives state node shape)
          _ (fun entry held path state both => ⟨keptThere entry held path state both.1,
            stableThere entry held path state node shape both.1 both.2⟩)
          path middle ⟨between, first⟩
        rw [last] at still
        exact .cons ⟨rfl, still.2⟩
          (ih keptThere stableThere others between (Prod.ext later last))

/-- The shape of a form is made of shapes that the parts give, in the last state. -/
theorem shape_gives (gives : σ → Node → Shape → Prop) {form : Form} {shape : Shape}
    (kept : ∀ part ∈ form.parts, ∀ path state, holds state → holds (next part path state).2)
    (stable : ∀ other ∈ form.parts, ∀ path state part shape, holds state →
      gives state part shape → gives (next other path state).2 part shape)
    (parts : ∀ part ∈ form.parts, ∀ path state shape after, holds state →
      next part path state = (.ok shape, after) → gives after part shape)
    {path : Path} {state after : σ} (before : holds state)
    (found : form.shape next path state = (.ok shape, after)) : form.Gives (gives after) shape := by
  cases form with
  | settled own =>
    cases found
    exact .settled _
  | same node => exact .same (parts node List.mem_cons_self _ _ _ _ before found)
  | list items =>
    rw [Form.shape, wrap, Prod.mk.injEq, map_eq_ok] at found
    obtain ⟨⟨element, part, rfl⟩, last⟩ := found
    exact .list (parts items List.mem_cons_self _ _ _ _ before (Prod.ext part last))
  | sequence items =>
    rw [Form.shape, wrap, Prod.mk.injEq, map_eq_ok] at found
    obtain ⟨⟨element, part, rfl⟩, last⟩ := found
    exact .sequence (parts items List.mem_cons_self _ _ _ _ before (Prod.ext part last))
  | map values =>
    rw [Form.shape, wrap, Prod.mk.injEq, map_eq_ok] at found
    obtain ⟨⟨element, part, rfl⟩, last⟩ := found
    exact .map (parts values List.mem_cons_self _ _ _ _ before (Prod.ext part last))
  | object properties =>
    rw [shape_object, Prod.mk.injEq, map_eq_ok] at found
    obtain ⟨⟨shapes, aligned, rfl⟩, last⟩ := found
    have member {entry : String × Node} (held : entry ∈ properties) :
        entry.2 ∈ (object properties).parts := List.mem_map_of_mem held
    exact .object (attributes_gives gives (fun entry held => kept entry.2 (member held))
      (fun entry held => stable entry.2 (member held))
      (fun entry held => parts entry.2 (member held)) before (Prod.ext aligned last))
  | fault cause => cases found

/-! ## More than a budget allows -/

/--
One way to resolve parts has the outcome of another one, with the state behind it, wherever that is
definite.
-/
def Prolongs (larger next : Node → Path → σ → Outcome σ) : Prop :=
  ∀ node path state, Definite (next node path state).1 →
    larger node path state = next node path state

namespace Prolongs

/-- The shapes of properties and the state behind them stay what they are. -/
theorem attributes (prolongs : Prolongs larger next) (path : Path)
    (properties : List (String × Node)) (state : σ)
    (definite : Definite (attributes next path state properties).1) :
    Form.attributes larger path state properties = Form.attributes next path state properties := by
  induction properties generalizing state with
  | nil => rfl
  | cons property rest ih =>
    obtain ⟨name, node⟩ := property
    have first := prolongs node (path.push (.attr name)) state
    cases found : next node (path.push (.attr name)) state with
    | mk outcome after =>
      rw [found] at first
      cases outcome with
      | error cause =>
        rw [attributes_cons_error found] at definite ⊢
        exact attributes_cons_error (first definite.error)
      | ok shape =>
        rw [attributes_cons_ok found] at definite ⊢
        rw [attributes_cons_ok (first (.ok shape)), ih after (Definite.map_iff.1 definite)]

/-- The shape of a form and the state behind it stay what they are. -/
theorem shape (prolongs : Prolongs larger next) (form : Form) (path : Path) (state : σ)
    (definite : Definite (form.shape next path state).1) :
    form.shape larger path state = form.shape next path state := by
  cases form with
  | settled shape | fault cause => rfl
  | same node => exact prolongs node path state definite
  | list part | sequence part | map part =>
    have same := prolongs part _ state (Definite.map_iff.1 definite)
    simp only [Form.shape, same]
  | object properties =>
    rw [shape_object] at definite
    have same := prolongs.attributes path properties state (Definite.map_iff.1 definite)
    rw [shape_object, shape_object, same]

end Prolongs
end Form
end TypedTree.Schema
