import TypedTree.Proofs.Schema.Calls
import TypedTree.Proofs.Schema.Chains

/-!
# Documents that refer to themselves

The budget of a call is there for documents that refer to themselves. It stops what would go on
without end, also after other calls on the document: a node from which a chain goes on without end
never comes by a shape in the table. And it stops nothing else, if it is as large as the longest
chain.
-/

namespace TypedTree.Schema.Call

section Running

variable {κ : Type} [DecidableEq κ] [Digest κ] {document : Document} {call : Call} {node : Node}

/--
After any calls on a document, no call gives a shape to a node from which a chain goes on without
end, and if none of the nodes to which it leads is faulty, the budget of the call runs out. A budget
of as many steps as there are nodes in the longest chain does not run out. A node is one or the
other: some chain from it has no end, or all chains have a common bound.
-/
theorem run_overruns_on_cycles (formed : document.WellFormed) (before : List Call)
    (asked : call.node? document = some node)
    (wellFormed : ∀ other ∈ call :: before, ∀ node, other.node? document = some node →
      node.WellFormed)
    (agree : ∀ a b, Reached document (call :: before) a → Reached document (call :: before) b →
      (a.key : κ) = b.key → a.Agrees b) :
    (node.Endless document.definitions →
      (∀ shape, (call.run document (runAll document before : Memo κ Shape)).1 ≠ .ok shape) ∧
      ((∀ part, Relation.ReflTransGen (Node.LeadsTo document.definitions) node part →
          ¬ part.Faulty document.definitions) →
        ∃ path, (call.run document (runAll document before : Memo κ Shape)).1 =
          .error ⟨path, .recursionOverrun⟩)) ∧
    (∀ bound ≤ call.budget, node.Bounded document.definitions bound →
      ∀ path, (call.run document (runAll document before : Memo κ Shape)).1 ≠
        .error ⟨path, .recursionOverrun⟩) ∧
    (node.Endless document.definitions ∨ ∃ bound, node.Bounded document.definitions bound) := by
  have tracks := run_tracks formed before asked wellFormed agree
  generalize (call.run document (runAll document before : Memo κ Shape)).1 = outcome at tracks ⊢
  refine ⟨fun endless => ?_, fun bound enough bounded => ?_, Node.endless_or_bounded _ node⟩
  · have shapeless (shape : Shape) : outcome ≠ .ok shape := by
      rintro rfl
      obtain ⟨budget, similar⟩ := tracks.settles (.ok shape)
      obtain ⟨own, found, _⟩ := similar.ok_right
      exact endless.not_gives budget own ((resolveFreely_eq_ok _ _ _ _).1 found)
    refine ⟨shapeless, fun sane => ?_⟩
    cases outcome with
    | ok shape => exact absurd rfl (shapeless shape)
    | error error =>
      obtain ⟨path, cause⟩ := error
      by_cases overrun : cause = .recursionOverrun
      · exact ⟨path, by rw [overrun]⟩
      · obtain ⟨budget, similar⟩ := tracks.settles (Definite.error_iff.2 overrun)
        obtain ⟨part, steps, faulty⟩ := exists_faulty overrun similar.error_right
        exact absurd faulty (sane part steps)
  · have definite := (bounded.mono enough).definite .root
    have similar := tracks.complete definite
    intro path failed
    rw [failed] at similar
    exact definite path similar.error_right

end Running

/-- Calls come only to nodes among some that hold what is asked for and the parts of their forms. -/
theorem Reached.mem_of_closed {document : Document} {calls : List Call} {nodes : List Node}
    (asked : ∀ call ∈ calls, ∀ node, call.node? document = some node → node ∈ nodes)
    (closed : ∀ node ∈ nodes, ∀ part ∈ (node.form document.definitions).parts, part ∈ nodes)
    {node : Node} (met : Reached document calls node) : node ∈ nodes := by
  induction met with
  | asked made same => exact asked _ made _ same
  | part _ held ih => exact closed _ ih _ held

/-! ## An object that holds itself -/

/-- A mark, and another object of the kind. -/
def loopNode : Node :=
  { kind := some "object",
    properties := [("mark", .ofType "string"), ("inner", { allOf := [.referenceTo "Loop"] })] }

/-- A document with an object that holds another one of its kind. -/
def loopDocument : Document := ⟨[("Loop", loopNode)]⟩

/-- A call on the object. -/
def loopCall : Call := .resolveDefinition 9 "Loop"

/-- A call on the mark, which leads to no other node. -/
def markCall : Call := .resolve 1 (.ofType "string")

/-- The nodes that the calls come to. -/
def loopNodes : List Node :=
  [.referenceTo "Loop", loopNode, .ofType "string", { allOf := [.referenceTo "Loop"] }]

/-- The forms of the nodes. -/
theorem form_loopNodes :
    loopNodes.map (fun node => node.form loopDocument.definitions) =
      [.same loopNode, .object loopNode.properties, .settled .string,
        .same (.referenceTo "Loop")] := rfl

/-- None of the nodes is faulty, and their parts are among them. -/
theorem closed_loopNodes {node : Node} (held : node ∈ loopNodes) :
    ¬ node.Faulty loopDocument.definitions ∧
      ∀ part ∈ (node.form loopDocument.definitions).parts, part ∈ loopNodes := by
  have among := List.mem_map_of_mem (f := fun node => node.form loopDocument.definitions) held
  rw [form_loopNodes] at among
  simp only [List.mem_cons, List.not_mem_nil, or_false] at among
  rcases among with same | same | same | same <;>
    simp [Node.Faulty, same, Form.parts, loopNodes, loopNode]

/-- The nodes have distinct names. -/
theorem wellFormed_loopNodes {node : Node} (held : node ∈ loopNodes) : node.WellFormed := by
  have wrapped : Node.WellFormed { allOf := [.referenceTo "Loop"] } := by
    constructor <;> simp [Node.wellFormed_referenceTo]
  simp only [loopNodes, List.mem_cons, List.not_mem_nil, or_false] at held
  rcases held with rfl | rfl | rfl | rfl
  · exact Node.wellFormed_referenceTo _
  · constructor <;> simp [loopNode, Node.wellFormed_ofType, wrapped, Entries.distinct_cons]
  · exact Node.wellFormed_ofType _
  · exact wrapped

/-- The lengths of the fingerprints tell the nodes apart. -/
theorem length_loopNodes :
    loopNodes.map (fun node => node.fingerprint.length) = [24, 66, 12, 29] := by cbv

/-- Of the nodes, those of one key agree. -/
theorem agree_loopNodes {a b : Node} (left : a ∈ loopNodes) (right : b ∈ loopNodes)
    (same : (a.key : List UInt8) = b.key) : a.Agrees b := by
  have distinct : (loopNodes.map fun node => node.fingerprint.length).Nodup := by
    rw [length_loopNodes]
    decide
  have length : a.fingerprint.length = b.fingerprint.length := congrArg List.length same
  obtain rfl := List.inj_on_of_nodup_map distinct left right length
  exact (wellFormed_loopNodes left).agrees_self

/-- The object goes on to itself without end, through its second property. -/
theorem endless_loop :
    (Node.referenceTo "Loop").Endless loopDocument.definitions := by
  refine Node.endless_of_closed (fun node =>
    node = .referenceTo "Loop" ∨ node = loopNode ∨ node = { allOf := [.referenceTo "Loop"] })
    ?_ (.inl rfl)
  rintro node (rfl | rfl | rfl)
  · exact ⟨loopNode, Node.leadsTo_iff.2 List.mem_cons_self, .inr (.inl rfl)⟩
  · exact ⟨_, Node.leadsTo_iff.2 (List.mem_cons_of_mem _ List.mem_cons_self), .inr (.inr rfl)⟩
  · exact ⟨_, Node.leadsTo_iff.2 List.mem_cons_self, .inl rfl⟩

/-- A node that leads to no other starts chains of one node. -/
theorem bounded_mark : (Node.ofType "string").Bounded loopDocument.definitions 1 :=
  Node.bounded_succ fun _ leads => nomatch Node.leadsTo_iff.1 leads

/--
After a call on the mark, one on the object runs out of its budget; after the latter, the former
does not.
-/
theorem loop_overruns :
    (∃ path, (loopCall.run loopDocument
        (runAll loopDocument [markCall] : Memo (List UInt8) Shape)).1 =
      .error ⟨path, .recursionOverrun⟩) ∧
    ∀ path, (markCall.run loopDocument
        (runAll loopDocument [loopCall] : Memo (List UInt8) Shape)).1 ≠
      .error ⟨path, .recursionOverrun⟩ := by
  have formed : loopDocument.WellFormed := by
    intro entry held
    obtain rfl := List.mem_singleton.1 held
    exact wellFormed_loopNodes (by simp [loopNodes])
  have asked {calls : List Call} (only : ∀ call ∈ calls, call = loopCall ∨ call = markCall) :
      ∀ call ∈ calls, ∀ node, call.node? loopDocument = some node → node ∈ loopNodes := by
    intro call made node same
    rcases only call made with rfl | rfl <;> obtain rfl := Option.some.inj same <;>
      simp [loopNodes]
  have reached {calls : List Call} (only : ∀ call ∈ calls, call = loopCall ∨ call = markCall)
      {node : Node} (met : Reached loopDocument calls node) : node ∈ loopNodes :=
    met.mem_of_closed (asked only) fun node held => (closed_loopNodes held).2
  have among (part : Node) (steps : Relation.ReflTransGen
      (Node.LeadsTo loopDocument.definitions) (.referenceTo "Loop") part) : part ∈ loopNodes := by
    induction steps with
    | refl => simp [loopNodes]
    | tail _ leads ih => exact (closed_loopNodes ih).2 _ (Node.leadsTo_iff.1 leads)
  have loopAsked : loopCall.node? loopDocument = some (.referenceTo "Loop") := rfl
  have markAsked : markCall.node? loopDocument = some (.ofType "string") := rfl
  have loops := run_overruns_on_cycles (κ := List UInt8) formed [markCall] loopAsked
    (fun other made node same => wellFormed_loopNodes (asked (by simp) other made node same))
    (fun a b left right => agree_loopNodes (reached (by simp) left) (reached (by simp) right))
  have marks := run_overruns_on_cycles (κ := List UInt8) formed [loopCall] markAsked
    (fun other made node same => wellFormed_loopNodes (asked (by simp) other made node same))
    (fun a b left right => agree_loopNodes (reached (by simp) left) (reached (by simp) right))
  exact ⟨(loops.1 endless_loop).2 fun part steps => (closed_loopNodes (among part steps)).1,
    marks.2.1 1 (Nat.le_refl 1) bounded_mark⟩

end TypedTree.Schema.Call
