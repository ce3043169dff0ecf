import TypedTree.Proofs.Schema.Renaming

/-!
# Resolution of documents that differ in their references

The text of a reference decides which definition it names, under which key the node is kept, and
what is said where the definition is missing. If a change of all references, in the definitions and
in the requested node, keeps the definition that each of them names, and can be undone, it changes
nothing else: both documents are resolved step by step in the same way, with tables that hold the
same shapes under the keys of corresponding nodes.
-/

namespace TypedTree.Schema

/-! ## Forms in parallel -/

section Stepwise

variable {σ τ : Type} {change : String → String} {alike : σ → τ → Prop}
  {next : Node → Path → σ → Outcome σ} {nextOther : Node → Path → τ → Outcome τ}

/-- One outcome is the other one with a change of the reference in its error, from alike states. -/
structure Parallel (change : String → String) {α : Type} (alike : σ → τ → Prop)
    (outcome : Except SchemaError α × σ) (other : Except SchemaError α × τ) : Prop where
  same : other.1 = outcome.1.mapError (SchemaError.renamed change)
  states : alike outcome.2 other.2

/-- What is made of parallel outcomes is parallel. -/
theorem Parallel.map {α β : Type} {outcome : Except SchemaError α × σ}
    {other : Except SchemaError α × τ} (parallel : Parallel change alike outcome other)
    (make : α → β) :
    Parallel change alike (outcome.1.map make, outcome.2) (other.1.map make, other.2) := by
  refine ⟨?_, parallel.states⟩
  rw [parallel.same]
  cases outcome.1 <;> rfl

/-- A node and the one with changed references have parallel outcomes. -/
def RunsParallel (change : String → String) (alike : σ → τ → Prop)
    (next : Node → Path → σ → Outcome σ) (nextOther : Node → Path → τ → Outcome τ)
    (node : Node) : Prop :=
  ∀ path state other, alike state other →
    Parallel change alike (next node path state) (nextOther (node.renamed change) path other)

namespace Form

/-- The properties are resolved in parallel when each of them is. -/
theorem attributes_parallel {properties : List (String × Node)} (path : Path) {state : σ}
    {other : τ} (parts : ∀ entry ∈ properties, RunsParallel change alike next nextOther entry.2)
    (before : alike state other) :
    Parallel change alike (attributes next path state properties)
      (attributes nextOther path other
        (properties.map fun entry => (entry.1, entry.2.renamed change))) := by
  induction properties generalizing state other with
  | nil => exact ⟨rfl, before⟩
  | cons property rest ih =>
    obtain ⟨name, node⟩ := property
    obtain ⟨first, others⟩ := List.forall_mem_cons.1 parts
    have parallel := first (path.push (.attr name)) state other before
    rw [List.map_cons]
    cases found : next node (path.push (.attr name)) state with
    | mk outcome middle =>
      cases there : nextOther (node.renamed change) (path.push (.attr name)) other with
      | mk outcomeOther middleOther =>
        rw [found, there] at parallel
        obtain ⟨same, states⟩ := parallel
        obtain rfl : outcomeOther = _ := same
        cases outcome with
        | error error =>
          rw [attributes_cons_error found, attributes_cons_error there]
          exact ⟨rfl, states⟩
        | ok shape =>
          rw [attributes_cons_ok found, attributes_cons_ok there]
          exact (ih others states).map _

/-- A form is resolved in parallel when its parts are. -/
theorem shape_parallel {form : Form} (path : Path) {state : σ} {other : τ}
    (parts : ∀ part ∈ form.parts, RunsParallel change alike next nextOther part)
    (before : alike state other) :
    Parallel change alike (form.shape next path state)
      ((form.renamed change).shape nextOther path other) := by
  cases form with
  | settled shape => exact ⟨rfl, before⟩
  | same node => exact parts node List.mem_cons_self path state other before
  | list items => exact (parts items List.mem_cons_self _ state other before).map _
  | sequence items => exact (parts items List.mem_cons_self _ state other before).map _
  | map values => exact (parts values List.mem_cons_self _ state other before).map _
  | object properties =>
    rw [renamed, shape_object, shape_object]
    exact (attributes_parallel path
      (fun entry held => parts entry.2 (List.mem_map_of_mem held)) before).map _
  | fault cause => exact ⟨rfl, before⟩

end Form
end Stepwise

/-! ## Tables in parallel -/

section Kept

variable {κ : Type} [DecidableEq κ] [Digest κ] {change : String → String} {document : Document}
  {reached : Node → Prop} {node : Node} {cache other : Memo κ Shape}

/-- Two tables hold the same shapes for the nodes before and behind a change of references. -/
def Alike (change : String → String) (reached : Node → Prop) (cache other : Memo κ Shape) : Prop :=
  ∀ node, reached node → other.get? (node.renamed change).key = cache.get? node.key

/--
Nodes that are closed under the steps of resolution, and a change of their references that keeps
what each of them names and which of the nodes share a key.
-/
structure Harmless (κ : Type) [Digest κ] (change : String → String) (document : Document)
    (reached : Node → Prop) : Prop where
  parts : ∀ node, reached node → ∀ part ∈ (node.form document.definitions).parts, reached part
  target : ∀ node, reached node → ∀ reference, node.reference = some reference →
    Reference.target (change reference) = Reference.target reference
  key : ∀ a b, reached a → reached b →
    ((a.renamed change).key = ((b.renamed change).key : κ) ↔ a.key = (b.key : κ))

/-- What is kept for a node and for the one with changed references keeps the tables alike. -/
theorem keep_parallel (harmless : Harmless κ change document reached) (met : reached node)
    {outcome outcomeOther : Outcome (Memo κ Shape)}
    (parallel : Parallel change (Alike change reached) outcome outcomeOther) :
    Parallel change (Alike change reached) (keep node outcome)
      (keep (node.renamed change) outcomeOther) := by
  obtain ⟨outcome, cache⟩ := outcome
  obtain ⟨outcomeOther, other⟩ := outcomeOther
  obtain ⟨same, alike⟩ := parallel
  obtain rfl : outcomeOther = _ := same
  cases outcome with
  | error error => exact ⟨rfl, alike⟩
  | ok shape =>
    have given : (other.store (node.renamed change).key shape).1 =
        (cache.store node.key shape).1 := by
      rw [Memo.store, Memo.store, alike node met]
      cases cache.get? node.key <;> rfl
    refine ⟨congrArg Except.ok given, fun part held => ?_⟩
    change (other.store (node.renamed change).key shape).2.get? _ =
      (cache.store node.key shape).2.get? _
    rw [Memo.get?_store, Memo.get?_store, given, alike part held]
    simp only [harmless.key node part met held]

/-- A harmless change of references leaves resolution as it is, but for the text of an error. -/
theorem resolveAt_parallel (harmless : Harmless κ change document reached) (budget : Nat)
    (met : reached node) :
    RunsParallel change (Alike (κ := κ) change reached) (resolveAt document.definitions budget)
      (resolveAt (document.renamed change).definitions budget) node := by
  induction budget generalizing node with
  | zero => exact fun path state other alike => ⟨rfl, alike⟩
  | succ budget ih =>
    intro path cache other alike
    rw [resolveAt, resolveAt, alike node met]
    split
    · exact ⟨rfl, alike⟩
    · refine keep_parallel harmless met ?_
      rw [Node.form_renamed document (harmless.target node met)]
      exact Form.shape_parallel path (fun part held => ih (harmless.parts node met part held)) alike

end Kept

/-! ## Changes that can be undone -/

section Undone

variable {κ : Type} [Digest κ] {change back : String → String} {holds : String → Prop}
  {document : Document} {node : Node}

/-- A chain of nodes stays a chain behind a change that keeps what references name. -/
theorem Node.Refers.steps_renamed (refers : node.Refers holds)
    (table : ∀ entry ∈ document.definitions, entry.2.Refers holds)
    (target : ∀ text, holds text → Reference.target (change text) = Reference.target text)
    {part : Node} (steps : Relation.ReflTransGen (Node.LeadsTo document.definitions) node part) :
    part.Refers holds ∧
      Relation.ReflTransGen (Node.LeadsTo (document.renamed change).definitions)
        (node.renamed change) (part.renamed change) := by
  induction steps with
  | refl => exact ⟨refers, .refl⟩
  | @tail middle part _ leads ih =>
    obtain ⟨own, chain⟩ := ih
    refine ⟨own.of_leadsTo table leads, chain.tail (Node.leadsTo_iff.2 ?_)⟩
    have targets : ∀ reference, middle.reference = some reference →
        Reference.target (change reference) = Reference.target reference := by
      cases own with
      | intro reference => exact fun text said => target text (reference text said)
    rw [Node.form_renamed document targets, Form.parts_renamed]
    exact List.mem_map_of_mem (Node.leadsTo_iff.1 leads)

/--
A change of references that can be undone and keeps what they name is harmless, if neither before it
nor behind it nodes share a key that do not agree.
-/
theorem Node.Refers.harmless (refers : node.Refers holds) (start : node.WellFormed)
    (table : ∀ entry ∈ document.definitions, entry.2.Refers holds) (formed : document.WellFormed)
    (target : ∀ text, holds text → Reference.target (change text) = Reference.target text)
    (undone : ∀ text, holds text → back (change text) = text)
    (apart : node.KeyedApart κ document.definitions)
    (apartOther : (node.renamed change).KeyedApart κ (document.renamed change).definitions) :
    Harmless κ change document
      (Relation.ReflTransGen (Node.LeadsTo document.definitions) node) := by
  have separated := apart.separated formed start
  refine ⟨separated.parts, fun part met reference said => ?_, fun a b left right => ?_⟩
  · cases (refers.steps_renamed table target met).1 with
    | intro own => exact target reference (own reference said)
  · obtain ⟨refersLeft, chainLeft⟩ := refers.steps_renamed table target left
    obtain ⟨refersRight, chainRight⟩ := refers.steps_renamed table target right
    have formedLeft := separated.wellFormed a left
    constructor
    · intro same
      have agree : ((a.renamed change).renamed back).Agrees ((b.renamed change).renamed back) :=
        formedLeft.renamed.agrees_renamed (apartOther _ _ chainLeft chainRight same)
      rw [refersLeft.renamed_renamed undone, refersRight.renamed_renamed undone] at agree
      exact congrArg Digest.digest (agree.fingerprint_eq formedLeft)
    · intro same
      have agree : (a.renamed change).Agrees (b.renamed change) :=
        formedLeft.agrees_renamed (apart _ _ left right same)
      exact congrArg Digest.digest (agree.fingerprint_eq formedLeft.renamed)

/-- With empty tables, a harmless change of references changes only the text of an error. -/
theorem resolve_renamed [DecidableEq κ] {reached : Node → Prop}
    (harmless : Harmless κ change document reached) (met : reached node) (budget : Nat) :
    (resolve (document.renamed change).definitions budget (node.renamed change)
        (.empty : Memo κ Shape)).1 =
      (resolve document.definitions budget node (.empty : Memo κ Shape)).1.mapError
        (SchemaError.renamed change) :=
  (resolveAt_parallel harmless budget met .root .empty .empty fun _ _ => rfl).same

end Undone
end TypedTree.Schema
