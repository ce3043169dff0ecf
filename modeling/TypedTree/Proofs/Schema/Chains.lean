import Mathlib.Data.List.Chain
import Mathlib.Logic.Relation
import TypedTree.Proofs.Schema.Unmemoized

/-!
# Chains of nodes

Resolution leads from a node to the nodes whose shapes it needs. A node from which this goes on
without end has no shape within any budget. Where it does not, there is a budget that suffices,
since a node leads to finitely many others: the number of nodes in the longest chain. An error that
is no lack of budget is that of a node at which a chain ends.
-/

namespace TypedTree.Schema

namespace Node

/-- A node whose type decides about its shape. -/
structure DecidedByKind (node : Node) (kind : String) : Prop where
  reference : node.reference = none
  allOf : node.allOf = []
  intOrString : node.intOrString = false
  kind : node.declaredKind? = some kind

/-- The nodes to which resolution leads from a node. -/
inductive LeadsTo (definitions : List (String × Node)) (node : Node) : Node → Prop
  /-- A reference that is answered by a fixed node. -/
  | fixed {reference : String} {part : Node} : node.reference = some reference →
      Substitution.forId? (Reference.target reference) = some (.fixed part) →
      LeadsTo definitions node part
  /-- A reference to a definition that is adapted. -/
  | adapted {reference : String} {adapt : Node → Node} {definition : Node} :
      node.reference = some reference →
      Substitution.forId? (Reference.target reference) = some (.adapted adapt) →
      Entries.get? definitions (Reference.target reference) = some definition →
      LeadsTo definitions node (adapt definition)
  /-- A reference to any other definition. -/
  | definition {reference : String} {definition : Node} : node.reference = some reference →
      Substitution.forId? (Reference.target reference) = none →
      Entries.get? definitions (Reference.target reference) = some definition →
      LeadsTo definitions node definition
  /-- The only member of `allOf`. -/
  | member {part : Node} : node.reference = none → node.allOf = [part] →
      LeadsTo definitions node part
  /-- The items of a list. -/
  | items {part : Node} : node.DecidedByKind "array" → node.items = some part →
      node.additionalItems = none → LeadsTo definitions node part
  /-- The items of a sequence of any length. -/
  | additionalItems {part : Node} : node.DecidedByKind "array" → node.items = none →
      node.additionalItems = some part → LeadsTo definitions node part
  /-- A property of an object. -/
  | property {name : String} {part : Node} : node.DecidedByKind "object" →
      node.preserveUnknown = false → node.mapValues? = none → (name, part) ∈ node.properties →
      LeadsTo definitions node part
  /-- The values of a map. -/
  | values {part : Node} : node.DecidedByKind "object" → node.preserveUnknown = false →
      node.properties = [] → node.mapValues? = some part → LeadsTo definitions node part

/-- A node that is itself the reason why it has no shape. -/
def Faulty (definitions : List (String × Node)) (node : Node) : Prop :=
  ∃ cause, node.form definitions = .fault cause

/-- Some chain that starts at the node has no end. -/
def Endless (definitions : List (String × Node)) (node : Node) : Prop :=
  ∃ chain : Nat → Node, chain 0 = node ∧
    ∀ step, LeadsTo definitions (chain step) (chain (step + 1))

/-- The chains that start at the node have at most so many nodes. -/
def Bounded (definitions : List (String × Node)) (bound : Nat) (node : Node) : Prop :=
  ∀ rest, List.IsChain (LeadsTo definitions) (node :: rest) → (node :: rest).length ≤ bound

variable {definitions : List (String × Node)} {node part : Node}

/-! ## Steps and forms -/

/-- What a reference leads to is the part of its form. -/
theorem LeadsTo.of_mem_ofReference {reference : String} (said : node.reference = some reference)
    (held : part ∈ (Form.ofReference definitions reference).parts) :
    LeadsTo definitions node part := by
  unfold Form.ofReference at held
  dsimp only at held
  split at held
  · obtain rfl := List.mem_singleton.1 held
    exact .fixed said ‹_›
  · obtain rfl := List.mem_singleton.1 held
    exact .adapted said ‹_› ‹_›
  · obtain rfl := List.mem_singleton.1 held
    exact .definition said ‹_› ‹_›
  · cases held

/-- An array leads to the parts of its form. -/
theorem LeadsTo.of_mem_ofArray (decided : node.DecidedByKind "array")
    (held : part ∈ (Form.ofArray node).parts) : LeadsTo definitions node part := by
  unfold Form.ofArray at held
  split at held
  · obtain rfl := List.mem_singleton.1 held
    exact .items decided ‹_› ‹_›
  · obtain rfl := List.mem_singleton.1 held
    exact .additionalItems decided ‹_› ‹_›
  · cases held
  · cases held

/-- An object leads to the parts of its form. -/
theorem LeadsTo.of_mem_ofObject (decided : node.DecidedByKind "object")
    (held : part ∈ (Form.ofObject node).parts) : LeadsTo definitions node part := by
  unfold Form.ofObject at held
  split at held
  · cases held
  · rename_i closed
    have closed : node.preserveUnknown = false := by simpa using closed
    split at held
    · cases held
    · obtain rfl := List.mem_singleton.1 held
      exact .values decided closed ‹_› ‹_›
    · obtain ⟨⟨name, own⟩, entered, rfl⟩ := List.mem_map.1 held
      exact .property decided closed ‹_› entered
    · cases held

/-- Resolution leads to the parts of the form of a node, and to nothing else. -/
theorem leadsTo_iff : LeadsTo definitions node part ↔ part ∈ (node.form definitions).parts := by
  constructor
  · intro leads
    cases leads with
    | fixed said stands =>
      simp only [form, said]
      unfold Form.ofReference
      simp [stands, Form.parts]
    | adapted said stands found =>
      simp only [form, said]
      unfold Form.ofReference
      simp [stands, found, Form.parts]
    | definition said stands found =>
      simp only [form, said]
      unfold Form.ofReference
      simp [stands, found, Form.parts]
    | member plain only => simp [form, plain, only, Form.parts]
    | items decided said none =>
      simp [form, decided.reference, decided.allOf, decided.intOrString, Form.ofKind, decided.kind,
        Form.ofArray, said, none, Form.parts]
    | additionalItems decided none said =>
      simp [form, decided.reference, decided.allOf, decided.intOrString, Form.ofKind, decided.kind,
        Form.ofArray, said, none, Form.parts]
    | @property name _ decided closed none held =>
      have object : Form.ofObject node = .object node.properties := by
        cases same : node.properties with
        | nil => simp [same] at held
        | cons _ _ => simp [Form.ofObject, closed, same, none]
      simp only [form, decided.reference, decided.allOf, decided.intOrString, Form.ofKind,
        decided.kind, object]
      exact List.mem_map.2 ⟨(name, part), held, rfl⟩
    | values decided closed none said =>
      simp [form, decided.reference, decided.allOf, decided.intOrString, Form.ofKind, decided.kind,
        Form.ofObject, closed, none, said, Form.parts]
  · intro held
    unfold form at held
    split at held
    · exact .of_mem_ofReference ‹_› held
    · obtain rfl := List.mem_singleton.1 held
      exact .member ‹_› ‹_›
    · split at held
      · cases held
      · rename_i reference allOf plain
        have decided {kind : String} (said : node.declaredKind? = some kind) :
            node.DecidedByKind kind := ⟨reference, allOf, by simpa using plain, said⟩
        unfold Form.ofKind at held
        split at held
        case h_6 said => exact .of_mem_ofArray (decided said) held
        case h_7 said => exact .of_mem_ofObject (decided said) held
        all_goals cases held
    · cases held

/-! ## Chains -/

/-- Where a property of nodes is never lost on some step, chains need not end. -/
theorem endless_of_closed (holds : Node → Prop)
    (step : ∀ node, holds node → ∃ part, LeadsTo definitions node part ∧ holds part)
    (start : holds node) : Endless definitions node := by
  have among (node : {node : Node // holds node}) :
      ∃ part : {node : Node // holds node}, LeadsTo definitions node.1 part.1 := by
    obtain ⟨part, leads, kept⟩ := step node.1 node.2
    exact ⟨⟨part, kept⟩, leads⟩
  choose next leads using among
  refine ⟨fun count => (next^[count] ⟨node, start⟩).1, rfl, fun count => ?_⟩
  simp only [Function.iterate_succ_apply']
  exact leads _

/-- A chain without end goes on from a node to one from which it goes on. -/
theorem Endless.next (endless : Endless definitions node) :
    ∃ part, LeadsTo definitions node part ∧ Endless definitions part := by
  obtain ⟨chain, start, steps⟩ := endless
  exact ⟨chain 1, start ▸ steps 0, fun count => chain (count + 1), rfl,
    fun count => steps (count + 1)⟩

/-- Chains from a node have one node more than those from the nodes that it leads to. -/
theorem bounded_succ {bound : Nat}
    (parts : ∀ part, LeadsTo definitions node part → Bounded definitions bound part) :
    Bounded definitions (bound + 1) node := by
  intro rest chain
  cases rest with
  | nil => simp
  | cons part rest =>
    obtain ⟨leads, chain⟩ := List.isChain_cons_cons.1 chain
    exact Nat.succ_le_succ (parts part leads rest chain)

/-- Where a node leads, chains have one node less. -/
theorem Bounded.of_leadsTo {bound : Nat} (bounded : Bounded definitions (bound + 1) node)
    (leads : LeadsTo definitions node part) : Bounded definitions bound part :=
  fun rest chain => Nat.le_of_succ_le_succ
    (bounded (part :: rest) (List.isChain_cons_cons.2 ⟨leads, chain⟩))

/-- Every node starts a chain. -/
theorem not_bounded_zero : ¬ Bounded definitions 0 node :=
  fun bounded => Nat.not_succ_le_zero 0 (bounded [] (.singleton node))

/-- A bound may be larger. -/
theorem Bounded.mono {bound larger : Nat} (bounded : Bounded definitions bound node)
    (more : bound ≤ larger) : Bounded definitions larger node :=
  fun rest chain => Nat.le_trans (bounded rest chain) more

/-- A bound for each of some nodes is one for all of them. -/
theorem exists_bounded (nodes : List Node)
    (each : ∀ node ∈ nodes, ∃ bound, Bounded definitions bound node) :
    ∃ bound, ∀ node ∈ nodes, Bounded definitions bound node := by
  induction nodes with
  | nil => exact ⟨0, by simp⟩
  | cons first rest ih =>
    obtain ⟨one, bounded⟩ := each first List.mem_cons_self
    obtain ⟨others, all⟩ := ih fun node held => each node (List.mem_cons_of_mem _ held)
    refine ⟨max one others, List.forall_mem_cons.2 ⟨?_, fun node held => ?_⟩⟩
    · exact bounded.mono (Nat.le_max_left _ _)
    · exact (all node held).mono (Nat.le_max_right _ _)

/-- Either some chain from a node has no end, or there is a bound for all of them. -/
theorem endless_or_bounded (definitions : List (String × Node)) (node : Node) :
    Endless definitions node ∨ ∃ bound, Bounded definitions bound node := by
  by_cases bounded : ∃ bound, Bounded definitions bound node
  · exact .inr bounded
  · refine .inl (endless_of_closed
      (fun node => ¬ ∃ bound, Bounded definitions bound node) ?_ bounded)
    -- if each of its finitely many parts had a bound, the node would have one
    intro node unbounded
    by_contra stops
    push Not at stops
    obtain ⟨bound, all⟩ := exists_bounded (node.form definitions).parts
      fun part held => stops part (leadsTo_iff.2 held)
    exact unbounded ⟨bound + 1, bounded_succ fun part leads => all part (leadsTo_iff.1 leads)⟩

end Node

/-! ## Chains and free resolution -/

variable {definitions : List (String × Node)} {node : Node} {budget : Nat} {path : Path}

/-- What is made of an outcome fails where the outcome does. -/
theorem map_eq_error {α β : Type} {make : α → β} {outcome : Except SchemaError α}
    {error : SchemaError} : outcome.map make = .error error ↔ outcome = .error error := by
  cases outcome <;> simp [Except.map]

/-- Of two steps, the first fails or the second does. -/
theorem bind_eq_error {α β : Type} {first : Except SchemaError α} {next : α → Except SchemaError β}
    {error : SchemaError} :
    first.bind next = .error error ↔
      first = .error error ∨ ∃ value, first = .ok value ∧ next value = .error error := by
  cases first <;> simp [Except.bind]

namespace Form

variable {next : Node → Path → Except SchemaError Shape} {form : Form} {error : SchemaError}

/-- The parts of a form that has a shape have shapes. -/
theorem Gives.part {gives : Node → Shape → Prop} {shape : Shape} (given : form.Gives gives shape)
    {part : Node} (held : part ∈ form.parts) : ∃ own, gives part own := by
  cases given with
  | settled shape => cases held
  | same given | list given | sequence given | map given =>
    obtain rfl := List.mem_singleton.1 held
    exact ⟨_, given⟩
  | object aligned =>
    obtain ⟨property, entered, rfl⟩ := List.mem_map.1 held
    obtain ⟨entry, _, _, given⟩ := Paired.exists_right aligned entered
    exact ⟨entry.2, given⟩

/-- An error of properties is that of one of them. -/
theorem attributesFreely_eq_error {properties : List (String × Node)}
    (failed : attributesFreely next path properties = .error error) :
    ∃ property ∈ properties, ∃ place, next property.2 place = .error error := by
  induction properties with
  | nil => cases failed
  | cons property rest ih =>
    rw [attributesFreely_cons, bind_eq_error] at failed
    rcases failed with own | ⟨shape, _, others⟩
    · exact ⟨property, List.mem_cons_self, _, own⟩
    · obtain ⟨other, held, found⟩ := ih (map_eq_error.1 others)
      exact ⟨other, List.mem_cons_of_mem _ held, found⟩

/-- An error of a form is its own fault, or the error of a part. -/
theorem freely_eq_error (failed : form.freely next path = .error error) :
    form = .fault error.cause ∨ ∃ part ∈ form.parts, ∃ place, next part place = .error error := by
  cases form with
  | settled shape => cases failed
  | same node => exact .inr ⟨node, List.mem_cons_self, path, failed⟩
  | list node | sequence node | map node =>
    exact .inr ⟨node, List.mem_cons_self, _, map_eq_error.1 failed⟩
  | object properties =>
    rw [freely_object, map_eq_error] at failed
    obtain ⟨property, held, found⟩ := attributesFreely_eq_error failed
    exact .inr ⟨property.2, List.mem_map_of_mem held, found⟩
  | fault cause =>
    obtain rfl := Except.error.inj failed
    exact .inl rfl

/-- A reference is not at fault for a lack of budget. -/
theorem ofReference_ne_overrun (reference : String) :
    ofReference definitions reference ≠ .fault .recursionOverrun := by
  unfold ofReference
  dsimp only
  split <;> simp

/-- An array is not at fault for a lack of budget. -/
theorem ofArray_ne_overrun (node : Node) : ofArray node ≠ .fault .recursionOverrun := by
  unfold ofArray
  split <;> simp

/-- An object is not at fault for a lack of budget. -/
theorem ofObject_ne_overrun (node : Node) : ofObject node ≠ .fault .recursionOverrun := by
  unfold ofObject
  split
  · simp
  · split <;> simp

/-- A node that refers to no other is not at fault for a lack of budget. -/
theorem ofKind_ne_overrun (node : Node) : ofKind node ≠ .fault .recursionOverrun := by
  unfold ofKind
  split
  case h_6 => exact ofArray_ne_overrun node
  case h_7 => exact ofObject_ne_overrun node
  all_goals simp

end Form

/-- A lack of budget is no fault of a node. -/
theorem Node.form_ne_overrun (node : Node) :
    node.form definitions ≠ .fault .recursionOverrun := by
  unfold Node.form
  split
  · exact Form.ofReference_ne_overrun _
  · simp
  · split
    · simp
    · exact Form.ofKind_ne_overrun node
  · simp

/-- A node from which a chain goes on without end has no shape. -/
theorem Node.Endless.not_gives (endless : node.Endless definitions) (budget : Nat)
    (shape : Shape) : ¬ node.Gives definitions budget shape := by
  induction budget generalizing node shape with
  | zero => exact id
  | succ budget ih =>
    intro given
    obtain ⟨part, leads, endless⟩ := endless.next
    obtain ⟨own, found⟩ := Form.Gives.part given (Node.leadsTo_iff.1 leads)
    exact ih endless own found

/-- An error that is no lack of budget is that of a faulty node to which resolution comes. -/
theorem exists_faulty {error : SchemaError} (cause : error.cause ≠ .recursionOverrun)
    (failed : resolveFreely definitions budget node path = .error error) :
    ∃ part, Relation.ReflTransGen (Node.LeadsTo definitions) node part ∧
      part.Faulty definitions := by
  induction budget generalizing node path with
  | zero =>
    obtain rfl := Except.error.inj failed
    exact absurd rfl cause
  | succ budget ih =>
    rcases Form.freely_eq_error failed with own | ⟨part, held, place, found⟩
    · exact ⟨node, .refl, _, own⟩
    · obtain ⟨last, steps, faulty⟩ := ih found
      exact ⟨last, .head (Node.leadsTo_iff.2 held) steps, faulty⟩

/-- A budget of as many steps as chains have nodes is sufficient. -/
theorem Node.Bounded.definite (bounded : node.Bounded definitions budget) (path : Path) :
    Definite (resolveFreely definitions budget node path) := by
  induction budget generalizing node path with
  | zero => exact absurd bounded Node.not_bounded_zero
  | succ budget ih =>
    intro place failed
    rcases Form.freely_eq_error failed with own | ⟨part, held, inner, found⟩
    · exact node.form_ne_overrun own
    · exact ih (bounded.of_leadsTo (Node.leadsTo_iff.2 held)) inner place found

end TypedTree.Schema
