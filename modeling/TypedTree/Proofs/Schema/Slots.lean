import TypedTree.Proofs.Schema.Lookup
import TypedTree.Proofs.Shape.Equality

/-!
# Where tuple shapes of one slot come from

What holds of every shape that a form makes of shapes for which it holds, holds of every shape that
resolution keeps. A tuple shape of one slot is made of additional items alone, so resolution gives
none where no node that it comes to declares any.
-/

namespace TypedTree

/-- A tuple shape of exactly one slot, anywhere in a shape. -/
inductive Shape.HasSingleSlot : Shape → Prop
  | here (slot : Shape) : HasSingleSlot (tuple [slot])
  | slot {slots : List Shape} {slot : Shape} : slot ∈ slots → HasSingleSlot slot →
      HasSingleSlot (tuple slots)
  | list {element : Shape} : HasSingleSlot element → HasSingleSlot (list element)
  | set {element : Shape} : HasSingleSlot element → HasSingleSlot (set element)
  | map {element : Shape} : HasSingleSlot element → HasSingleSlot (map element)
  | named {attributes : List (String × Shape)} {entry : String × Shape} :
      entry ∈ attributes → HasSingleSlot entry.2 → HasSingleSlot (object attributes)

namespace Schema

section Kept

variable {κ : Type} [DecidableEq κ] [Digest κ] {definitions : List (String × Node)} {node : Node}
  {holds : Shape → Prop} {cache : Memo κ Shape}

/-- A property of every shape that a table keeps. -/
def KeptShapes (holds : Shape → Prop) (cache : Memo κ Shape) : Prop :=
  ∀ key shape, cache.get? key = some shape → holds shape

omit [Digest κ] in
/-- The table without entries keeps no shape. -/
theorem KeptShapes.empty : KeptShapes holds (.empty : Memo κ Shape) :=
  fun _ _ found => nomatch found

/-- Keeping a shape that has the property leaves the property of the table. -/
theorem KeptShapes.keep {outcome : Outcome (Memo κ Shape)} (kept : KeptShapes holds outcome.2)
    (own : ∀ shape, outcome.1 = .ok shape → holds shape) :
    KeptShapes holds (Schema.keep node outcome).2 := by
  obtain ⟨outcome, cache⟩ := outcome
  cases outcome with
  | error cause => exact kept
  | ok shape =>
    intro key held found
    rw [Schema.keep, Memo.get?_store] at found
    by_cases same : node.key = key
    · rw [if_pos same, Memo.store] at found
      cases present : cache.get? node.key with
      | none =>
        rw [present] at found
        obtain rfl := Option.some.inj found
        exact own shape rfl
      | some before =>
        rw [present] at found
        obtain rfl := Option.some.inj found
        exact kept _ _ present
    · rw [if_neg same] at found
      exact kept _ _ found

/--
What every form on the way makes of shapes with a property has the property, so resolution keeps it
of all shapes in the table.
-/
theorem resolveAt_keeps (budget : Nat)
    (made : ∀ part, Relation.ReflTransGen (Node.LeadsTo definitions) node part →
      ∀ shape, (part.form definitions).Gives (fun _ => holds) shape → holds shape)
    (path : Path) (before : KeptShapes holds cache) :
    KeptShapes holds (resolveAt definitions budget node path cache).2 := by
  induction budget generalizing node path cache with
  | zero => exact before
  | succ budget ih =>
    have kept : ∀ part ∈ (node.form definitions).parts, ∀ path (state : Memo κ Shape),
        KeptShapes holds state →
        KeptShapes holds (resolveAt definitions budget part path state).2 :=
      fun part held path state =>
        ih (fun other steps => made other (.head (Node.leadsTo_iff.2 held) steps)) path
    rw [resolveAt]
    cases cache.get? node.key with
    | some shape => exact before
    | none =>
      apply KeptShapes.keep
      · exact Form.shape_keeps _ kept path cache before
      · intro shape found
        apply made node .refl
        -- what a part gives is kept for it, so the property of the table tells about it
        refine Form.shape_gives (fun _ _ => holds) kept
          (fun _ _ _ _ _ _ _ given => given) ?_ before (Prod.ext found rfl)
        intro part held path state shape after there given
        have behind := kept part held path state there
        rw [given] at behind
        exact behind _ _ (get?_resolveAt given)

end Kept

/-! ## Shapes of one slot -/

variable {definitions : List (String × Node)} {node : Node} {shape : Shape}

/--
A shape of a form that decides by itself has no slots at all, and only one kind of form spreads.
-/
def Form.Spares (node : Node) : Form → Prop
  | settled shape => ¬ shape.HasSingleSlot
  | sequence _ => node.additionalItems ≠ none
  | _ => True

/-- A scalar shape has no slots, and neither has plain `dynamic`. -/
theorem not_hasSingleSlot_leaf (leaf : shape = .dynamic ∨ shape = .string ∨ shape = .bool ∨
    shape = .number) : ¬ shape.HasSingleSlot := by
  rintro single
  rcases leaf with rfl | rfl | rfl | rfl <;> cases single

/-- Of the forms of a node only that of additional items is a sequence of any length. -/
theorem Node.form_spares (definitions : List (String × Node)) (node : Node) :
    (node.form definitions).Spares node := by
  unfold Node.form
  split
  · unfold Form.ofReference
    dsimp only
    split <;> trivial
  · trivial
  · split
    · exact not_hasSingleSlot_leaf (.inl rfl)
    · unfold Form.ofKind
      split
      · exact not_hasSingleSlot_leaf (.inl rfl)
      · exact not_hasSingleSlot_leaf (.inr (.inl rfl))
      · exact not_hasSingleSlot_leaf (.inr (.inr (.inl rfl)))
      · exact not_hasSingleSlot_leaf (.inr (.inr (.inr rfl)))
      · exact not_hasSingleSlot_leaf (.inr (.inr (.inr rfl)))
      · unfold Form.ofArray
        split
        · trivial
        · rename_i spread
          rw [Form.Spares, spread]
          exact nofun
        · trivial
        · trivial
      · unfold Form.ofObject
        split
        · exact not_hasSingleSlot_leaf (.inl rfl)
        · split
          · exact not_hasSingleSlot_leaf (.inl rfl)
          · trivial
          · trivial
          · trivial
      · trivial
  · trivial

/-- Without additional items a form makes no tuple shape of one slot. -/
theorem Node.not_hasSingleSlot_of_gives (bare : node.additionalItems = none)
    (given : (node.form definitions).Gives (fun _ shape => ¬ shape.HasSingleSlot) shape) :
    ¬ shape.HasSingleSlot := by
  have spares := node.form_spares definitions
  generalize node.form definitions = form at spares given
  intro single
  cases given with
  | settled shape => exact spares single
  | same part => exact part single
  | list part =>
    cases single with
    | list inner => exact part inner
  | sequence part => exact spares bare
  | map part =>
    cases single with
    | map inner => exact part inner
  | object aligned =>
    cases single with
    | named held inner =>
      obtain ⟨property, _, _, part⟩ := Paired.exists_left aligned held
      exact part inner

/-- Without additional items on the way resolution gives no tuple shape of one slot. -/
theorem resolve_spares {κ : Type} [DecidableEq κ] [Digest κ] {budget : Nat}
    {cache after : Memo κ Shape}
    (bare : ∀ part, Relation.ReflTransGen (Node.LeadsTo definitions) node part →
      part.additionalItems = none)
    (before : KeptShapes (fun shape => ¬ shape.HasSingleSlot) cache)
    (given : resolve definitions budget node cache = (.ok shape, after)) :
    ¬ shape.HasSingleSlot ∧ KeptShapes (fun shape => ¬ shape.HasSingleSlot) after := by
  have kept : KeptShapes (fun shape => ¬ shape.HasSingleSlot)
      (resolveAt definitions budget node .root cache).2 :=
    resolveAt_keeps budget
      (fun part steps _ => Node.not_hasSingleSlot_of_gives (bare part steps)) .root before
  rw [resolve] at given
  rw [given] at kept
  exact ⟨kept _ _ (get?_resolveAt given), kept⟩

end Schema

end TypedTree
