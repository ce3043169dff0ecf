import TypedTree.Proofs.Convert.Places
import TypedTree.Proofs.Schema.Lookup
import TypedTree.Proofs.Schema.Recursion

/-!
# What a failure leaves in the table

A resolution only adds to its table, also one that fails. The nodes that it was about to resolve
when it failed are a chain from the requested node to the failure. None of them has a shape in the
table afterwards, although references may have led back to nodes of the same content: a node comes
into the table only behind all of its parts, and the next node of the chain is a part that did not
come into it. The properties that were resolved before the chain left an object stay in the table.
-/

namespace TypedTree.Schema

/-! ## How a form fails -/

/-- Behind which properties, and by which steps, a form goes on to a part. -/
inductive Form.GoesOn : Form → List (String × Node) → List Step → Node → Prop
  | same (node : Node) : GoesOn (same node) [] [] node
  | list (items : Node) : GoesOn (list items) [] [.attr "items"] items
  | sequence (items : Node) : GoesOn (sequence items) [] [.attr "additionalItems"] items
  | map (values : Node) : GoesOn (map values) [] [.attr "additionalProperties"] values
  | property (before : List (String × Node)) (name : String) (part : Node)
      (rest : List (String × Node)) :
      GoesOn (object (before ++ (name, part) :: rest)) before [.attr name] part

namespace Form

variable {σ : Type} {next : Node → Path → σ → Outcome σ} {form other : Form} {part : Node}
  {before : List (String × Node)} {steps : List Step} {path : Path} {state middle after : σ}
  {shapes : List (String × Shape)} {error : SchemaError}

/-- A form goes on to its parts. -/
theorem GoesOn.mem (goes : form.GoesOn before steps part) : part ∈ form.parts := by
  cases goes with
  | same | list | sequence | map => exact List.mem_cons_self
  | property before name part rest => simp [parts]

/-- Behind properties that have shapes the others are resolved. -/
theorem attributes_append (rest : List (String × Node))
    (resolved : attributes next path state before = (.ok shapes, middle)) :
    attributes next path state (before ++ rest) =
      ((attributes next path middle rest).1.map (shapes ++ ·),
        (attributes next path middle rest).2) := by
  induction before generalizing state shapes with
  | nil =>
    cases resolved
    rw [List.nil_append]
    generalize attributes next path middle rest = outcome
    obtain ⟨outcome, last⟩ := outcome
    cases outcome <;> rfl
  | cons property before ih =>
    obtain ⟨name, node⟩ := property
    cases found : next node (path.push (.attr name)) state with
    | mk outcome second =>
      cases outcome with
      | error cause =>
        rw [attributes_cons_error found] at resolved
        cases resolved
      | ok shape =>
        rw [attributes_cons_ok found, Prod.mk.injEq, map_eq_ok] at resolved
        obtain ⟨⟨others, later, rfl⟩, last⟩ := resolved
        have inner := ih (Prod.ext later last)
        rw [List.cons_append, attributes_cons_ok found, inner]
        cases (attributes next path middle rest).1 <;> rfl

/-- Resolving properties fails at one of them, behind others that have shapes. -/
theorem attributes_eq_error {properties : List (String × Node)} :
    attributes next path state properties = (.error error, after) ↔
      ∃ before name part rest, properties = before ++ (name, part) :: rest ∧
        ∃ shapes middle, attributes next path state before = (.ok shapes, middle) ∧
          next part (path.push (.attr name)) middle = (.error error, after) := by
  constructor
  · intro failed
    induction properties generalizing state with
    | nil => cases failed
    | cons property rest ih =>
      obtain ⟨name, node⟩ := property
      cases found : next node (path.push (.attr name)) state with
      | mk outcome second =>
        cases outcome with
        | error cause =>
          rw [attributes_cons_error found] at failed
          cases failed
          exact ⟨[], name, node, rest, rfl, [], state, rfl, found⟩
        | ok shape =>
          rw [attributes_cons_ok found, Prod.mk.injEq, map_eq_error] at failed
          obtain ⟨before, own, part, others, rfl, shapes, middle, resolved, last⟩ :=
            ih (Prod.ext failed.1 failed.2)
          refine ⟨(name, node) :: before, own, part, others, rfl, (name, shape) :: shapes, middle,
            ?_, last⟩
          rw [attributes_cons_ok found, resolved]
          rfl
  · rintro ⟨before, name, part, rest, rfl, shapes, middle, resolved, failed⟩
    rw [attributes_append _ resolved, attributes_cons_error failed]
    rfl

/-- A form fails by its own fault, or goes on to a part that fails. -/
theorem shape_eq_error :
    form.shape next path state = (.error error, after) ↔
      (form = .fault error.cause ∧ error.path = path ∧ after = state) ∨
      ∃ before steps part, form.GoesOn before steps part ∧
        ∃ shapes middle, attributes next path state before = (.ok shapes, middle) ∧
          next part (path.under steps) middle = (.error error, after) := by
  constructor
  · intro failed
    cases form with
    | settled shape => cases failed
    | same node =>
      refine .inr ⟨[], [], node, .same node, [], state, rfl, ?_⟩
      rwa [Path.under_nil]
    | list node | sequence node | map node =>
      rw [Form.shape, wrap, Prod.mk.injEq, map_eq_error] at failed
      exact .inr ⟨[], _, node, by constructor, [], state, rfl, Prod.ext failed.1 failed.2⟩
    | object properties =>
      rw [shape_object, Prod.mk.injEq, map_eq_error] at failed
      obtain ⟨before, name, part, rest, rfl, resolved⟩ :=
        attributes_eq_error.1 (Prod.ext failed.1 failed.2)
      exact .inr ⟨before, _, part, .property before name part rest, resolved⟩
    | fault cause =>
      cases failed
      exact .inl ⟨rfl, rfl, rfl⟩
  · rintro (⟨rfl, same, rfl⟩ | ⟨before, steps, part, goes, shapes, middle, resolved, failed⟩)
    · rw [Form.shape, ← same]
    · cases goes with
      | same =>
        cases resolved
        rwa [Path.under_nil] at failed
      | list | sequence | map =>
        cases resolved
        change wrap _ (next part (path.under _) state) = _
        rw [failed]
        rfl
      | property before name part rest =>
        have whole := attributes_eq_error.2
          ⟨before, name, part, rest, rfl, shapes, middle, resolved, failed⟩
        rw [shape_object, whole]
        rfl

/-- Where one of two matching forms has a part, the other one has a part that agrees. -/
theorem Matches.exists_part (matching : form.Matches other) (held : part ∈ form.parts) :
    ∃ own ∈ other.parts, part.Agrees own := by
  cases matching with
  | settled | fault => cases held
  | same agree | list agree | sequence agree | map agree =>
    obtain rfl := List.mem_singleton.1 held
    exact ⟨_, List.mem_cons_self, agree⟩
  | object matching =>
    obtain ⟨property, entered, rfl⟩ := List.mem_map.1 held
    obtain ⟨own, found, agree⟩ := matching.2 property entered
    exact ⟨own, List.mem_map_of_mem (Entries.mem_of_get? found), agree⟩

end Form

section Kept

variable {κ : Type} [DecidableEq κ] [Digest κ] {definitions : List (String × Node)}
  {reached : Node → Prop} {node : Node} {path : Path} {budget : Nat}
  {cache middle after : Memo κ Shape} {error : SchemaError}

/-! ## How a table grows -/

/-- Keeping a shape changes nothing of what is in the table. -/
theorem get?_keep_of_get? {outcome : Outcome (Memo κ Shape)} {key : κ} {shape : Shape}
    (held : outcome.2.get? key = some shape) :
    (keep node outcome).2.get? key = some shape := by
  obtain ⟨outcome, middle⟩ := outcome
  cases outcome with
  | error cause => exact held
  | ok own =>
    change (middle.store node.key own).2.get? key = some shape
    rw [Memo.get?_store]
    by_cases here : node.key = key
    · rw [if_pos here, Memo.store, here, held]
    · rw [if_neg here, held]

/--
A table that has all entries of another one, and beyond them only entries for nodes of which it has
all parts.
-/
structure Grown (definitions : List (String × Node)) (reached : Node → Prop)
    (cache after : Memo κ Shape) : Prop where
  keeps : ∀ key shape, cache.get? key = some shape → after.get? key = some shape
  adds : ∀ key shape, cache.get? key = none → after.get? key = some shape →
    ∃ node, reached node ∧ node.key = key ∧
      ∀ part ∈ (node.form definitions).parts, ∃ own, after.get? part.key = some own

namespace Grown

/-- A table that stays the same has grown by nothing. -/
theorem refl (cache : Memo κ Shape) : Grown definitions reached cache cache where
  keeps _ _ held := held
  adds _ _ absent found := nomatch absent.symm.trans found

/-- A table that grows twice has grown. -/
theorem trans (first : Grown definitions reached cache middle)
    (second : Grown definitions reached middle after) : Grown definitions reached cache after where
  keeps key shape held := second.keeps key shape (first.keeps key shape held)
  adds key shape absent found := by
    cases between : middle.get? key with
    | none => exact second.adds key shape between found
    | some own =>
      obtain ⟨node, met, same, parts⟩ := first.adds key own absent between
      refine ⟨node, met, same, fun part held => ?_⟩
      obtain ⟨there, stands⟩ := parts part held
      exact ⟨there, second.keeps _ there stands⟩

/-- A table grows by the shape that is kept for a node of which it has all parts. -/
theorem keep {outcome : Outcome (Memo κ Shape)}
    (grown : Grown definitions reached cache outcome.2) (met : reached node)
    (parts : ∀ shape, outcome.1 = .ok shape →
      ∀ part ∈ (node.form definitions).parts, ∃ own, outcome.2.get? part.key = some own) :
    Grown definitions reached cache (Schema.keep node outcome).2 := by
  obtain ⟨outcome, middle⟩ := outcome
  cases outcome with
  | error cause => exact grown
  | ok shape =>
    refine grown.trans ⟨fun key own held => get?_keep_of_get? held, fun key own absent found => ?_⟩
    change (middle.store node.key shape).2.get? key = some own at found
    rw [Memo.get?_store] at found
    by_cases here : node.key = key
    · refine ⟨node, met, here, fun part held => ?_⟩
      obtain ⟨there, stands⟩ := parts shape rfl part held
      exact ⟨there, get?_keep_of_get? stands⟩
    · rw [if_neg here, absent] at found
      cases found

end Grown

/-- Resolution only adds to a table, and what it adds stands behind its parts. -/
theorem resolveAt_grows (closed : ∀ node, reached node →
      ∀ part ∈ (node.form definitions).parts, reached part)
    (budget : Nat) {node : Node} (met : reached node) (path : Path) (cache : Memo κ Shape) :
    Grown definitions reached cache (resolveAt definitions budget node path cache).2 := by
  induction budget generalizing node path cache with
  | zero => exact .refl cache
  | succ budget ih =>
    have grows : ∀ part ∈ (node.form definitions).parts, ∀ path (state : Memo κ Shape),
        Grown definitions reached state (resolveAt definitions budget part path state).2 :=
      fun part held path state => ih (closed node met part held) path state
    have kept : ∀ part ∈ (node.form definitions).parts, ∀ path (state : Memo κ Shape),
        Grown definitions reached cache state →
        Grown definitions reached cache (resolveAt definitions budget part path state).2 :=
      fun part held path state before => before.trans (grows part held path state)
    rw [resolveAt]
    split
    · exact .refl cache
    · refine Grown.keep (Form.shape_keeps _ kept path cache (.refl cache)) met fun shape found => ?_
      -- each part has the shape that was found for it, also when the others have been resolved
      have given := Form.shape_gives
        (fun (state : Memo κ Shape) part shape => state.get? part.key = some shape) kept
        (fun other held path state part own _ there =>
          (grows other held path state).keeps _ own there)
        (fun _ _ _ _ _ _ _ given => get?_resolveAt given) (.refl cache) (Prod.ext found rfl)
      exact fun part held => given.part held

/-- Resolution keeps what is in the table, whichever nodes share a key. -/
theorem get?_resolveAt_of_get? {key : κ} {shape : Shape} (held : cache.get? key = some shape) :
    (resolveAt definitions budget node path cache).2.get? key = some shape := by
  have grown : Grown definitions (fun _ => True) cache
      (resolveAt definitions budget node path cache).2 :=
    resolveAt_grows (fun _ _ _ _ => trivial) budget trivial path cache
  exact grown.keeps key shape held

/-! ## Nodes in progress -/

/--
A resolution within some budget fails for a node that is at fault, or for a part that the node goes
on to, from the table that the properties before that part left.
-/
theorem resolveAt_succ_eq_error :
    resolveAt definitions (budget + 1) node path cache = (.error error, after) ↔
      cache.get? node.key = none ∧
        ((node.form definitions = .fault error.cause ∧ error.path = path ∧ after = cache) ∨
        ∃ before steps part, (node.form definitions).GoesOn before steps part ∧
          ∃ shapes middle,
            Form.attributes (resolveAt definitions budget) path cache before =
              (.ok shapes, middle) ∧
            resolveAt definitions budget part (path.under steps) middle =
              (.error error, after)) := by
  rw [← Form.shape_eq_error, resolveAt]
  cases present : cache.get? node.key with
  | some shape => simp
  | none =>
    generalize (node.form definitions).shape (resolveAt definitions budget) path cache = outcome
    obtain ⟨outcome, last⟩ := outcome
    cases outcome <;> simp [keep]

/-- Without a budget nothing is resolved. -/
theorem resolveAt_zero :
    resolveAt definitions 0 node path cache = (.error ⟨path, .recursionOverrun⟩, cache) := rfl

/-- Without a budget no property has a shape, so only the first can be the one that fails. -/
theorem attributes_resolveAt_zero {before : List (String × Node)} {shapes : List (String × Shape)}
    (resolved : Form.attributes (resolveAt definitions 0) path cache before =
      (.ok shapes, middle)) : middle = cache := by
  cases before with
  | nil =>
    cases resolved
    rfl
  | cons property rest =>
    rw [Form.attributes_cons_error resolveAt_zero] at resolved
    cases resolved

/--
A node that was entered within some budget and failed has no shape in the table: it would have come
into it behind all of its parts, but the part that failed is not there either.
-/
theorem get?_eq_none_of_error (separated : Separated κ definitions reached) (met : reached node)
    (failed : resolveAt definitions (budget + 1) node path cache = (.error error, after)) :
    after.get? (node.key : κ) = none := by
  induction budget generalizing node path cache with
  | zero =>
    obtain ⟨absent, fault | goes⟩ := resolveAt_succ_eq_error.1 failed
    · rw [fault.2.2, absent]
    · obtain ⟨_, _, part, _, _, middle, resolved, last⟩ := goes
      rw [resolveAt_zero, Prod.mk.injEq] at last
      rw [← last.2, attributes_resolveAt_zero resolved, absent]
  | succ budget ih =>
    obtain ⟨absent, fault | goes⟩ := resolveAt_succ_eq_error.1 failed
    · rw [fault.2.2, absent]
    · obtain ⟨_, _, part, goes, _, middle, _, last⟩ := goes
      have inner : after.get? (part.key : κ) = none :=
        ih (separated.parts node met part goes.mem) last
      cases present : after.get? (node.key : κ) with
      | none => rfl
      | some shape =>
        have grown := resolveAt_grows separated.parts (budget + 2) met path cache
        rw [failed] at grown
        obtain ⟨other, otherMet, same, parts⟩ := grown.adds _ shape absent present
        -- the node that came into the table agrees with this one, so it has an agreeing part
        have agree : node.Agrees other := separated.agree _ _ met otherMet same.symm
        have matching := agree.form fun reference =>
          (Form.wellFormed_ofReference separated.table reference).matches_self
        obtain ⟨own, held, partAgree⟩ := matching.exists_part goes.mem
        have formed := separated.wellFormed part (separated.parts node met part goes.mem)
        have key : (part.key : κ) = own.key :=
          congrArg Digest.digest (partAgree.fingerprint_eq formed)
        obtain ⟨kept, found⟩ := parts own held
        rw [← key, inner] at found
        cases found

/-! ## The chain to a failure -/

/--
A node on the way to a failure: the budget that was left when it was entered, and the properties
that were resolved before the chain left it, with their shapes.
-/
structure Visit where
  budget : Nat
  node : Node
  before : List (String × Node) := []
  shapes : List (String × Shape) := []

/--
The nodes from a requested one to a failure: the last one is entered without a budget or is at
fault; each of the others is left for a part to which its form goes on, with the properties before
that part resolved.
-/
inductive Fails (definitions : List (String × Node)) :
    Nat → Node → Path → Memo κ Shape → SchemaError → List Visit → Prop
  | overrun (node : Node) (path : Path) (cache : Memo κ Shape) :
      Fails definitions 0 node path cache ⟨path, .recursionOverrun⟩ [⟨0, node, [], []⟩]
  | fault {budget : Nat} {node : Node} {path : Path} {cache : Memo κ Shape}
      {cause : SchemaError.Cause} :
      cache.get? node.key = none → node.form definitions = .fault cause →
      Fails definitions (budget + 1) node path cache ⟨path, cause⟩ [⟨budget + 1, node, [], []⟩]
  | through {budget : Nat} {node part : Node} {path : Path} {cache middle : Memo κ Shape}
      {before : List (String × Node)} {steps : List Step} {shapes : List (String × Shape)}
      {error : SchemaError} {visits : List Visit} :
      cache.get? node.key = none → (node.form definitions).GoesOn before steps part →
      Form.attributes (resolveAt definitions budget) path cache before = (.ok shapes, middle) →
      Fails definitions budget part (path.under steps) middle error visits →
      Fails definitions (budget + 1) node path cache error
        (⟨budget + 1, node, before, shapes⟩ :: visits)

/-- A resolution that fails has a chain of nodes to its failure. -/
theorem exists_fails
    (failed : resolveAt definitions budget node path cache = (.error error, after)) :
    ∃ visits, Fails definitions budget node path cache error visits := by
  induction budget generalizing node path cache with
  | zero =>
    cases failed
    exact ⟨_, .overrun node path _⟩
  | succ budget ih =>
    obtain ⟨absent, ⟨fault, rfl, rfl⟩ | goes⟩ := resolveAt_succ_eq_error.1 failed
    · exact ⟨_, .fault absent fault⟩
    · obtain ⟨_, _, part, goes, _, middle, resolved, last⟩ := goes
      obtain ⟨visits, fails⟩ := ih last
      exact ⟨_, .through absent goes resolved fails⟩

/-- Properties that have shapes have them in the table, also when more has been resolved. -/
theorem aligned_of_attributes {before : List (String × Node)} {shapes : List (String × Shape)}
    (resolved : Form.attributes (resolveAt definitions budget) path cache before =
      (.ok shapes, middle)) :
    Entries.Aligned (fun part shape => middle.get? (part.key : κ) = some shape) before shapes :=
  @Form.attributes_gives _ _ (fun _ => True)
    (fun (state : Memo κ Shape) part shape => state.get? part.key = some shape) before shapes
    (fun _ _ _ _ _ => trivial) (fun _ _ _ _ _ _ _ there => get?_resolveAt_of_get? there)
    (fun _ _ _ _ _ _ _ given => get?_resolveAt given) path cache middle trivial resolved

/--
What a failure leaves of a node on the way to it: no shape of the node in the table, if it was
entered with a budget, and the shapes of the properties that were resolved before.
-/
structure Visit.LeftIn (visit : Visit) (after : Memo κ Shape) : Prop where
  absent : 0 < visit.budget → after.get? visit.node.key = none
  resolved : Entries.Aligned (fun part shape => after.get? part.key = some shape) visit.before
    visit.shapes

/-- A chain to a failure belongs to a resolution that fails, and is left so in its table. -/
theorem Fails.leftIn {visits : List Visit} (separated : Separated κ definitions reached)
    (fails : Fails definitions budget node path cache error visits) (met : reached node) :
    ∃ after, resolveAt definitions budget node path cache = (.error error, after) ∧
      ∀ visit ∈ visits, visit.LeftIn after := by
  induction fails with
  | overrun node path cache =>
    refine ⟨cache, resolveAt_zero, List.forall_mem_singleton.2 ⟨?_, .nil⟩⟩
    exact fun some => absurd some (Nat.lt_irrefl 0)
  | @fault budget node path cache cause absent fault =>
    have failed : resolveAt definitions (budget + 1) node path cache =
        (.error ⟨path, cause⟩, cache) :=
      resolveAt_succ_eq_error.2 ⟨absent, .inl ⟨fault, rfl, rfl⟩⟩
    exact ⟨cache, failed, List.forall_mem_singleton.2 ⟨fun _ => absent, .nil⟩⟩
  | @through budget node part path cache middle before steps shapes error visits absent goes
      resolved _ ih =>
    obtain ⟨after, last, others⟩ := ih (separated.parts node met part goes.mem)
    have failed : resolveAt definitions (budget + 1) node path cache = (.error error, after) :=
      resolveAt_succ_eq_error.2
        ⟨absent, .inr ⟨before, steps, part, goes, shapes, middle, resolved, last⟩⟩
    refine ⟨after, failed, List.forall_mem_cons.2 ⟨⟨fun _ => ?_, ?_⟩, others⟩⟩
    · exact get?_eq_none_of_error separated met failed
    · refine (aligned_of_attributes resolved).imp fun property entry held => ⟨held.1, ?_⟩
      have later : (resolveAt definitions budget part (path.under steps) middle).2.get?
          property.2.key = some entry.2 := get?_resolveAt_of_get? held.2
      rwa [last] at later

/-! ## Calls -/

namespace Call

variable {document : Document} {call : Call}

/-- A call keeps what is in its table, whichever nodes share a key. -/
theorem get?_run_of_get? {key : κ} {shape : Shape} (held : cache.get? key = some shape) :
    (call.run document cache).2.get? key = some shape := by
  cases asked : call.node? document with
  | none => rwa [run_of_not_asked asked]
  | some node =>
    rcases run_of_asked asked cache with same | same
    · rw [same]
      exact get?_resolveAt_of_get? held
    · rw [same, Document.resolveNode]
      split
      · exact held
      · exact get?_keep_of_get? (get?_resolveAt_of_get? held)

/-- A call that fails for a node is a resolution of the node that fails. -/
theorem resolveAt_of_run_eq_error (asked : call.node? document = some node)
    (failed : call.run document cache = (.error error, after)) :
    resolveAt document.definitions call.budget node .root cache = (.error error, after) := by
  rcases run_of_asked asked cache with same | same
  · rw [same] at failed
    exact failed
  · rw [same, Document.resolveNode] at failed
    split at failed
    · cases failed
    · rw [Schema.resolve] at failed
      cases inner : resolveAt document.definitions call.budget node .root cache with
      | mk outcome last =>
        rw [inner] at failed
        cases outcome with
        | ok shape => cases failed
        | error cause => exact failed

/--
A call only adds to its table, whatever the table holds. If the call fails for a node, and only
nodes that agree share a key, the nodes on the chain from there to the failure that were entered
with a budget have no shape in the table afterwards, while the properties that were resolved before
the chain left an object have the shapes that were found for them.
-/
theorem failed_run_leaves_sound_table (document : Document) (call : Call) (cache : Memo κ Shape) :
    (∀ key shape, cache.get? key = some shape →
      (call.run document cache).2.get? key = some shape) ∧
    (document.WellFormed → (∀ node, call.node? document = some node → node.WellFormed) →
      (∀ a b, Reached document [call] a → Reached document [call] b →
        (a.key : κ) = b.key → a.Agrees b) →
      ∀ node error after, call.node? document = some node →
        call.run document cache = (.error error, after) →
        (∃ visits, Fails document.definitions call.budget node .root cache error visits) ∧
        ∀ visits, Fails document.definitions call.budget node .root cache error visits →
          ∀ visit ∈ visits, visit.LeftIn after) := by
  refine ⟨fun key shape held => get?_run_of_get? held, ?_⟩
  intro formed wellFormed agree node error after asked failed
  have separated : Separated κ document.definitions (Reached document [call]) :=
    Reached.separated formed (fun _ made => List.mem_singleton.1 made ▸ wellFormed) agree
  have whole := resolveAt_of_run_eq_error asked failed
  refine ⟨exists_fails whole, fun visits fails => ?_⟩
  obtain ⟨again, same, left⟩ := fails.leftIn separated (.asked List.mem_cons_self asked)
  obtain rfl : after = again := congrArg Prod.snd (whole.symm.trans same)
  exact left

/-- A call on the object that holds itself, with a budget for its mark and for little more. -/
def shortCall : Call := .resolveDefinition 3 "Loop"

/-- The way of the call to the reference for which there is no budget left. -/
def shortVisits : List Visit :=
  [⟨3, .referenceTo "Loop", [], []⟩,
    ⟨2, loopNode, [("mark", .ofType "string")], [("mark", .string)]⟩,
    ⟨1, { allOf := [.referenceTo "Loop"] }, [], []⟩, ⟨0, .referenceTo "Loop", [], []⟩]

/-- The table behind the call: the mark, and nothing else. -/
def shortMemo : Memo (List UInt8) Shape := ⟨[((Node.ofType "string").key, .string)]⟩

/-- The call fails at the inner object, and leaves the nodes on the way as a failure does. -/
theorem shortCall_leaves_mark :
    shortCall.run loopDocument (.empty : Memo (List UInt8) Shape) =
        (.error ⟨⟨[.attr "inner"]⟩, .recursionOverrun⟩, shortMemo) ∧
      ∀ visit ∈ shortVisits, visit.LeftIn shortMemo := by
  have failed : shortCall.run loopDocument (.empty : Memo (List UInt8) Shape) =
      (.error ⟨⟨[.attr "inner"]⟩, .recursionOverrun⟩, shortMemo) := by cbv
  have chain : Fails loopDocument.definitions 3 (.referenceTo "Loop") .root
      (.empty : Memo (List UInt8) Shape) ⟨⟨[.attr "inner"]⟩, .recursionOverrun⟩ shortVisits := by
    have absent : shortMemo.get? (Node.key { allOf := [.referenceTo "Loop"] }) = none := by cbv
    have mark : Form.attributes (resolveAt loopDocument.definitions 1) .root
        (.empty : Memo (List UInt8) Shape) [("mark", .ofType "string")] =
          (.ok [("mark", .string)], shortMemo) := by cbv
    exact .through rfl (.same loopNode) rfl (.through rfl
      (.property [("mark", .ofType "string")] "inner" { allOf := [.referenceTo "Loop"] } []) mark
        (.through absent (.same (.referenceTo "Loop")) rfl (.overrun _ _ _)))
  have formed : loopDocument.WellFormed := by
    intro entry held
    obtain rfl := List.mem_singleton.1 held
    exact wellFormed_loopNodes (by simp [loopNodes])
  have asked : ∀ call ∈ [shortCall], ∀ node, call.node? loopDocument = some node →
      node ∈ loopNodes := by
    intro call made node same
    obtain rfl := List.mem_singleton.1 made
    obtain rfl := Option.some.inj same
    simp [loopNodes]
  have reached {node : Node} (met : Reached loopDocument [shortCall] node) : node ∈ loopNodes :=
    met.mem_of_closed asked fun node held => (closed_loopNodes held).2
  have left := (failed_run_leaves_sound_table loopDocument shortCall .empty).2 formed
    (fun node same => wellFormed_loopNodes (asked _ List.mem_cons_self node same))
    (fun a b left right => agree_loopNodes (reached left) (reached right))
    (.referenceTo "Loop") _ _ rfl failed
  exact ⟨failed, left.2 shortVisits chain⟩

end Call
end Kept
end TypedTree.Schema
