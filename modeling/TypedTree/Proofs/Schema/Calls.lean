import Mathlib
import TypedTree.Proofs.Schema.Memoization

/-!
# Calls on one document

Calls that share a table are made one after the other, with any nodes and budgets and whether they
succeed or not. As long as only nodes that agree share a key, the shapes and errors of a call are
those of resolution without a table, except that a call may succeed where the latter runs out of its
budget.
-/

namespace TypedTree.Schema

/-- A call of the resolver, with its budget. -/
inductive Call where
  | resolve (budget : Nat) (node : Node)
  | resolveNode (budget : Nat) (node : Node)
  | resolveDefinition (budget : Nat) (id : String)
  | resolveKind (budget : Nat) (tag : GroupVersionKind)

namespace Call

/-- The budget of a call. -/
def budget : Call → Nat
  | resolve budget _ | resolveNode budget _ | resolveDefinition budget _ | resolveKind budget _ =>
    budget

/-- The node that a call resolves; there is none for a resource kind that nothing describes. -/
def node? (document : Document) : Call → Option Node
  | resolve _ node | resolveNode _ node => some node
  | resolveDefinition _ id => some (.referenceTo id)
  | resolveKind _ tag => (document.definitionForKind? tag).map .referenceTo

section Running

variable {κ : Type} [DecidableEq κ] [Digest κ]

/-- Makes a call. -/
def run (document : Document) (cache : Memo κ Shape) : Call → Outcome (Memo κ Shape)
  | resolve budget node => Schema.resolve document.definitions budget node cache
  | resolveNode budget node => document.resolveNode budget node cache
  | resolveDefinition budget id => document.resolveDefinition budget id cache
  | resolveKind budget tag => document.resolveKind budget tag cache

/-- The table that calls leave, one after the other, starting without entries. -/
def runAll (document : Document) (calls : List Call) : Memo κ Shape :=
  calls.foldl (fun cache call => (call.run document cache).2) .empty

end Running

/-- The nodes that calls come to: those they are made for, and the parts of forms from there. -/
inductive Reached (document : Document) (calls : List Call) : Node → Prop
  | asked {call : Call} {node : Node} : call ∈ calls → call.node? document = some node →
      Reached document calls node
  | part {node part : Node} : Reached document calls node →
      part ∈ (node.form document.definitions).parts → Reached document calls part

/-- Nodes that are reached from well-formed ones are well-formed. -/
theorem Reached.wellFormed {document : Document} {calls : List Call} {node : Node}
    (met : Reached document calls node) (formed : document.WellFormed)
    (asked : ∀ call ∈ calls, ∀ node, call.node? document = some node → node.WellFormed) :
    node.WellFormed := by
  induction met with
  | asked made same => exact asked _ made _ same
  | part _ held ih => exact (ih.form formed).part held

/-- The nodes that calls come to are separated when those of one key agree. -/
theorem Reached.separated {κ : Type} [Digest κ] {document : Document} {calls : List Call}
    (formed : document.WellFormed)
    (asked : ∀ call ∈ calls, ∀ node, call.node? document = some node → node.WellFormed)
    (agree : ∀ a b, Reached document calls a → Reached document calls b →
      (a.key : κ) = b.key → a.Agrees b) :
    Separated κ document.definitions (Reached document calls) where
  table := formed
  wellFormed _ met := met.wellFormed formed asked
  parts _ met _ held := met.part held
  agree := agree

section Running

variable {κ : Type} [DecidableEq κ] [Digest κ] {document : Document} {reached : Node → Prop}
  {call : Call} {node : Node} {cache : Memo κ Shape}

/-- Resolving a node tracks its free resolution, also where a kept shape is given at once. -/
theorem resolveNode_follows (separated : Separated κ document.definitions reached)
    (budget : Nat) (met : reached node) (sound : Sound document.definitions reached cache) :
    Tracks (fun a b => a == b) (resolveFreely document.definitions · node .root) budget
      (document.resolveNode budget node cache).1 ∧
    Sound document.definitions reached (document.resolveNode budget node cache).2 := by
  unfold Document.resolveNode
  split
  · rename_i found
    obtain ⟨larger, own, given, same⟩ := sound.found separated met found
    exact ⟨.of_gives given same, sound⟩
  · obtain ⟨tracks, after⟩ := resolveAt_follows separated budget met .root cache sound
    exact keep_follow separated met tracks after

/-- A call for a node resolves the node, as it is or unless the table has a shape for it. -/
theorem run_of_asked (asked : call.node? document = some node) (cache : Memo κ Shape) :
    call.run document cache = Schema.resolve document.definitions call.budget node cache ∨
      call.run document cache = document.resolveNode call.budget node cache := by
  cases call with
  | resolve budget own =>
    obtain rfl := Option.some.inj asked
    exact .inl rfl
  | resolveNode budget own =>
    obtain rfl := Option.some.inj asked
    exact .inr rfl
  | resolveDefinition budget id =>
    obtain rfl := Option.some.inj asked
    exact .inr rfl
  | resolveKind budget tag =>
    obtain ⟨id, described, rfl⟩ := Option.map_eq_some_iff.1 asked
    simp only [run, Document.resolveKind, described]
    exact .inr rfl

/-- A call for no node leaves the table as it is. -/
theorem run_of_not_asked (unasked : call.node? document = none) (cache : Memo κ Shape) :
    (call.run document cache).2 = cache := by
  cases call with
  | resolve | resolveNode | resolveDefinition => cases unasked
  | resolveKind budget tag =>
    have unknown := Option.map_eq_none_iff.1 unasked
    simp only [run, Document.resolveKind, unknown]

/-- A call tracks the free resolution of its node and leaves a sound table. -/
theorem run_follows (separated : Separated κ document.definitions reached)
    (asked : call.node? document = some node) (met : reached node)
    (sound : Sound document.definitions reached cache) :
    Tracks (fun a b => a == b) (resolveFreely document.definitions · node .root) call.budget
      (call.run document cache).1 ∧
    Sound document.definitions reached (call.run document cache).2 := by
  rcases run_of_asked asked cache with same | same
  · rw [same]
    exact resolveAt_follows separated call.budget met .root cache sound
  · rw [same]
    exact resolveNode_follows separated call.budget met sound

/-- A call leaves a sound table, also when it is made for no node. -/
theorem run_sound (separated : Separated κ document.definitions reached)
    (met : ∀ node, call.node? document = some node → reached node)
    (sound : Sound document.definitions reached cache) :
    Sound document.definitions reached (call.run document cache).2 := by
  cases asked : call.node? document with
  | some node => exact (run_follows separated asked (met node asked) sound).2
  | none => rwa [run_of_not_asked asked]

/-- Calls leave a sound table when they find one. -/
theorem foldl_run_sound (separated : Separated κ document.definitions reached)
    (calls : List Call)
    (met : ∀ call ∈ calls, ∀ node, call.node? document = some node → reached node)
    (sound : Sound document.definitions reached cache) :
    Sound document.definitions reached
      (calls.foldl (fun cache call => (call.run document cache).2) cache) := by
  induction calls generalizing cache with
  | nil => exact sound
  | cons call rest ih =>
    have after := run_sound separated (met call List.mem_cons_self) sound
    exact ih (fun other held => met other (List.mem_cons_of_mem _ held)) after

/-- Calls leave a sound table, whatever they are and whether they succeed or not. -/
theorem runAll_sound (separated : Separated κ document.definitions reached) (calls : List Call)
    (met : ∀ call ∈ calls, ∀ node, call.node? document = some node → reached node) :
    Sound document.definitions reached (runAll document calls : Memo κ Shape) :=
  foldl_run_sound separated calls met .empty

/-- After any calls on a document, a call tracks the free resolution of its node. -/
theorem run_tracks (formed : document.WellFormed) (before : List Call)
    (asked : call.node? document = some node)
    (wellFormed : ∀ other ∈ call :: before, ∀ node, other.node? document = some node →
      node.WellFormed)
    (agree : ∀ a b, Reached document (call :: before) a → Reached document (call :: before) b →
      (a.key : κ) = b.key → a.Agrees b) :
    Tracks (fun a b => a == b) (resolveFreely document.definitions · node .root) call.budget
      (call.run document (runAll document before : Memo κ Shape)).1 := by
  have separated := Reached.separated formed wellFormed agree
  have met : Reached document (call :: before) node := .asked List.mem_cons_self asked
  have sound : Sound document.definitions (Reached document (call :: before))
      (runAll document before : Memo κ Shape) :=
    runAll_sound separated before fun other made _ same =>
      .asked (List.mem_cons_of_mem _ made) same
  exact (run_follows separated asked met sound).1

/--
After any calls on a document, a call finds the shapes and the errors that resolution without a
table finds. Its shape is one that resolution without a table gives within some budget, and the one
that it gives within the budget of the call, if it does. Errors other than a lack of budget are the
same, with their path: those of resolution without a table, within the budget of the call, are those
of the call, and those of the call are those of resolution without a table, within some budget.
-/
theorem run_agrees_with_resolveFreely (formed : document.WellFormed) (before : List Call)
    (asked : call.node? document = some node)
    (wellFormed : ∀ other ∈ call :: before, ∀ node, other.node? document = some node →
      node.WellFormed)
    (agree : ∀ a b, Reached document (call :: before) a → Reached document (call :: before) b →
      (a.key : κ) = b.key → a.Agrees b) :
    (∀ shape, (call.run document (runAll document before : Memo κ Shape)).1 = .ok shape →
      ∃ budget own, resolveFreely document.definitions budget node .root = .ok own ∧
        own == shape) ∧
    (∀ own, resolveFreely document.definitions call.budget node .root = .ok own →
      ∃ shape, (call.run document (runAll document before : Memo κ Shape)).1 = .ok shape ∧
        shape == own) ∧
    (∀ error, error.cause ≠ .recursionOverrun →
      resolveFreely document.definitions call.budget node .root = .error error →
      (call.run document (runAll document before : Memo κ Shape)).1 = .error error) ∧
    ∀ error, error.cause ≠ .recursionOverrun →
      (call.run document (runAll document before : Memo κ Shape)).1 = .error error →
      ∃ budget, resolveFreely document.definitions budget node .root = .error error := by
  have tracks := run_tracks formed before asked wellFormed agree
  refine ⟨fun shape found => ?_, fun own found => ?_, fun error other found => ?_,
    fun error other found => ?_⟩
  · rw [found] at tracks
    obtain ⟨budget, similar⟩ := tracks.settles (.ok shape)
    exact ⟨budget, similar.ok_right⟩
  · have similar := tracks.complete (found ▸ .ok own)
    rw [found] at similar
    obtain ⟨shape, given, same⟩ := similar.ok_left
    have ownFormed := ((resolveFreely_eq_ok _ _ _ _).1 found).wellFormed formed
      (wellFormed call List.mem_cons_self node asked)
    exact ⟨shape, given, Shape.beq_symm ownFormed same⟩
  · have similar := tracks.complete (found ▸ Definite.error_iff.2 other)
    rw [found] at similar
    exact similar.error_left
  · rw [found] at tracks
    obtain ⟨budget, similar⟩ := tracks.settles (Definite.error_iff.2 other)
    exact ⟨budget, similar.error_right⟩

end Running

/-! ## Two objects that share a key -/

/-- A document with a definition of a text and one that leads to itself. -/
def leafDocument : Document := ⟨[("Leaf", .ofType "string"), ("Cycle", .referenceTo "Cycle")]⟩

/-- An object of a text, by reference, and a truth value. -/
def treeNode : Node :=
  { kind := some "object",
    properties := [("leaf", .referenceTo "Leaf"), ("set", .ofType "boolean")] }

/-- The same object with its properties the other way round. -/
def turnedNode : Node :=
  { kind := some "object",
    properties := [("set", .ofType "boolean"), ("leaf", .referenceTo "Leaf")] }

/-- A call that runs out of its budget, and one that fills the table. -/
def treeCalls : List Call := [.resolveDefinition 1 "Cycle", .resolveNode 3 treeNode]

/-- A call whose budget does not reach the properties. -/
def turnedCall : Call := .resolveNode 1 turnedNode

/-- The nodes that the calls come to. -/
def treeNodes : List Node :=
  [.referenceTo "Cycle", treeNode, turnedNode, .referenceTo "Leaf", .ofType "string",
    .ofType "boolean"]

/-- The parts of the nodes are among them. -/
theorem parts_treeNodes :
    treeNodes.map (fun node => (node.form leafDocument.definitions).parts) =
      [[.referenceTo "Cycle"], [.referenceTo "Leaf", .ofType "boolean"],
        [.ofType "boolean", .referenceTo "Leaf"], [.ofType "string"], [], []] := rfl

/-- The calls come to no other nodes. -/
theorem mem_treeNodes {node : Node}
    (met : Reached leafDocument (turnedCall :: treeCalls) node) : node ∈ treeNodes := by
  induction met with
  | asked made same =>
    simp only [treeCalls, turnedCall, List.mem_cons, List.not_mem_nil, or_false] at made
    rcases made with rfl | rfl | rfl <;> obtain rfl := Option.some.inj same <;> simp [treeNodes]
  | part _ held ih =>
    have among :=
      List.mem_map_of_mem (f := fun node => (node.form leafDocument.definitions).parts) ih
    rw [parts_treeNodes] at among
    simp only [List.mem_cons, List.not_mem_nil, or_false] at among
    rcases among with same | same | same | same | same | same <;> rw [same] at held <;>
      simp only [List.mem_cons, List.not_mem_nil, or_false] at held
    · simp [held, treeNodes]
    · rcases held with rfl | rfl <;> simp [treeNodes]
    · rcases held with rfl | rfl <;> simp [treeNodes]
    · simp [held, treeNodes]

/-- The nodes have distinct names. -/
theorem wellFormed_treeNodes {node : Node} (held : node ∈ treeNodes) : node.WellFormed := by
  have leaf := Node.wellFormed_referenceTo "Leaf"
  have flag := Node.wellFormed_ofType "boolean"
  simp only [treeNodes, List.mem_cons, List.not_mem_nil, or_false] at held
  rcases held with rfl | rfl | rfl | rfl | rfl | rfl
  · exact Node.wellFormed_referenceTo _
  · constructor <;> simp [treeNode, leaf, flag, Entries.distinct_cons]
  · constructor <;> simp [turnedNode, leaf, flag, Entries.distinct_cons]
  · exact leaf
  · exact Node.wellFormed_ofType _
  · exact flag

/-- Two properties may stand in either order. -/
theorem agrees_swapped {first second : String × Node} (apart : first.1 ≠ second.1)
    (left : first.2.WellFormed) (right : second.2.WellFormed) :
    Node.Agrees { kind := some "object", properties := [first, second] }
      { kind := some "object", properties := [second, first] } := by
  refine .intro rfl rfl .none .none rfl (by simp [or_comm]) (fun entry held other found => ?_)
    .none .nil rfl rfl
  simp only [List.mem_cons, List.not_mem_nil, or_false] at held
  rcases held with rfl | rfl
  · obtain rfl : entry.2 = other := by simpa [Entries.get?, apart.symm] using found
    exact left.agrees_self
  · obtain rfl : entry.2 = other := by simpa [Entries.get?] using found
    exact right.agrees_self

/-- The lengths of the fingerprints tell the nodes apart, but for the order of properties. -/
theorem length_treeNodes :
    treeNodes.map (fun node => node.fingerprint.length) = [25, 60, 60, 24, 12, 13] := by cbv

/-- Of the nodes that the calls come to, those of one key agree. -/
theorem agree_treeNodes {a b : Node} (left : a ∈ treeNodes) (right : b ∈ treeNodes)
    (same : (a.key : List UInt8) = b.key) : a.Agrees b := by
  have self := (wellFormed_treeNodes left).agrees_self
  have leaf := Node.wellFormed_referenceTo "Leaf"
  have flag := Node.wellFormed_ofType "boolean"
  have length : a.fingerprint.length = b.fingerprint.length := congrArg List.length same
  have sizes := length_treeNodes
  simp only [treeNodes, List.map_cons, List.map_nil, List.cons.injEq, and_true] at sizes
  obtain ⟨cycle, tree, turned, reference, text, truth⟩ := sizes
  simp only [treeNodes, List.mem_cons, List.not_mem_nil, or_false] at left right
  rcases left with rfl | rfl | rfl | rfl | rfl | rfl <;>
    rcases right with rfl | rfl | rfl | rfl | rfl | rfl
  all_goals first
    | exact self
    | exact agrees_swapped (by decide) leaf flag
    | exact agrees_swapped (by decide) flag leaf
    | omega

/--
The second object is answered with the shape of the first, in whose order its attributes stand; the
budget would not have been sufficient, but a larger one gives an equal shape.
-/
theorem turnedCall_agrees :
    (turnedCall.run leafDocument (runAll leafDocument treeCalls : Memo (List UInt8) Shape)).1 =
        .ok (.object [("leaf", .string), ("set", .bool)]) ∧
      (∃ path, resolveFreely leafDocument.definitions 1 turnedNode .root =
        .error ⟨path, .recursionOverrun⟩) ∧
      ∃ budget own, resolveFreely leafDocument.definitions budget turnedNode .root = .ok own ∧
        own == .object [("leaf", .string), ("set", .bool)] := by
  have found : (turnedCall.run leafDocument
      (runAll leafDocument treeCalls : Memo (List UInt8) Shape)).1 =
        .ok (.object [("leaf", .string), ("set", .bool)]) := by cbv
  have formed : leafDocument.WellFormed := by
    simp [Document.WellFormed, leafDocument, Node.wellFormed_ofType, Node.wellFormed_referenceTo]
  have agrees := run_agrees_with_resolveFreely (κ := List UInt8) formed treeCalls
    (show turnedCall.node? leafDocument = some turnedNode from rfl)
    (fun other made node same => wellFormed_treeNodes (mem_treeNodes (.asked made same)))
    (fun a b left right => agree_treeNodes (mem_treeNodes left) (mem_treeNodes right))
  exact ⟨found, ⟨_, rfl⟩, agrees.1 _ found⟩

end Call
end TypedTree.Schema
