import Mathlib
import TypedTree.Proofs.Schema.Outcomes

/-!
# Larger budgets

A budget only stops resolution. From one and the same table, whatever it holds and whichever nodes
share a key, resolution within a larger budget makes the same steps, as long as the smaller one does
not run out: it finds the same shapes in the table, keeps the same ones, and comes to the same shape
or error.
-/

namespace TypedTree.Schema

variable {κ : Type} [DecidableEq κ] [Digest κ]

/-- What is definite once its shape is kept was definite before. -/
theorem Definite.of_keep {node : Node} {outcome : Outcome (Memo κ Shape)}
    (definite : Definite (keep node outcome).1) : Definite outcome.1 := by
  obtain ⟨outcome, cache⟩ := outcome
  cases outcome with
  | ok shape => exact .ok shape
  | error error => exact definite

/-- A larger budget has every outcome of a smaller one that did not run out, with its table. -/
theorem resolveAt_prolongs {definitions : List (String × Node)} {budget larger : Nat}
    (more : budget ≤ larger) :
    Form.Prolongs (resolveAt definitions larger) (resolveAt (κ := κ) definitions budget) := by
  induction budget generalizing larger with
  | zero => exact fun _ path _ definite => absurd definite (Definite.not_overrun path)
  | succ budget ih =>
    cases larger with
    | zero => omega
    | succ larger =>
      intro node path cache definite
      have parts := ih (Nat.le_of_succ_le_succ more)
      rw [resolveAt] at definite
      rw [resolveAt, resolveAt]
      -- both look at the same table first
      cases present : cache.get? node.key with
      | some shape => rfl
      | none =>
        rw [present] at definite
        have inner := Definite.of_keep definite
        have same := parts.shape (node.form definitions) path cache inner
        exact congrArg (keep node) same

/--
Whatever resolution within a budget comes to from a table, other than that the budget ran out, it
comes to from that table within every larger budget: the same shape, or the same error with its
path, and the same table behind it.
-/
theorem resolve_eq_of_larger (definitions : List (String × Node)) (node : Node)
    (cache : Memo κ Shape) {budget larger : Nat} (more : budget ≤ larger)
    (definite : ∀ path, (resolve definitions budget node cache).1 ≠
      .error ⟨path, .recursionOverrun⟩) :
    resolve definitions larger node cache = resolve definitions budget node cache :=
  resolveAt_prolongs more node .root cache definite

/-! ## A shape that is found beyond the budget -/

/-- A document that defines a text. -/
def leafDefinitions : List (String × Node) := [("Leaf", .ofType "string")]

/-- An object of the text, by reference, and of something that nothing defines. -/
def lostNode : Node :=
  { kind := some "object",
    properties := [("leaf", .referenceTo "Leaf"), ("lost", .referenceTo "Lost")] }

/-- A table that answers for the first reference, with a shape that is not the one of the text. -/
def foreignCache : Memo (List UInt8) Shape := ⟨[((Node.referenceTo "Leaf").key, .bool)]⟩

/--
Two steps are too few for the text itself, but the table answers for it, so the object fails for its
second property, within two steps as within nine.
-/
theorem lost_within_nine :
    (resolve leafDefinitions 2 lostNode foreignCache).1 =
      .error ⟨⟨[.attr "lost"]⟩, .unknownReference "#/definitions/Lost"⟩ ∧
    resolve leafDefinitions 9 lostNode foreignCache =
      resolve leafDefinitions 2 lostNode foreignCache := by
  have lost : (resolve leafDefinitions 2 lostNode foreignCache).1 =
      .error ⟨⟨[.attr "lost"]⟩, .unknownReference "#/definitions/Lost"⟩ := by cbv
  have definite : ∀ path, (resolve leafDefinitions 2 lostNode foreignCache).1 ≠
      .error ⟨path, .recursionOverrun⟩ := by
    intro path overrun
    rw [lost] at overrun
    cases overrun
  exact ⟨lost, resolve_eq_of_larger leafDefinitions lostNode foreignCache (by omega) definite⟩

end TypedTree.Schema
