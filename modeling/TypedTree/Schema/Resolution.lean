import TypedTree.Schema.Document
import TypedTree.Schema.Fingerprint
import TypedTree.Schema.Form
import TypedTree.Memo

/-!
# Resolution

A node is resolved to a shape within a budget of recursive steps, since documents may refer to
themselves and shapes cannot. Every shape that is found is kept under a digest of the fingerprint of
its node and answers for that node from then on, also where the budget would not reach; failures are
not kept, but what was resolved before a failure is. A key that is present is trusted: nodes whose
fingerprints have one digest share a shape.
-/

namespace TypedTree.Schema

/-- A way to shorten fingerprints to keys. -/
class Digest (κ : Type) where
  /-- The key of a fingerprint. -/
  digest : List UInt8 → κ

/-- A fingerprint may be its own key. -/
instance : Digest (List UInt8) := ⟨fun bytes => bytes⟩

/-- The key of a node. -/
def Node.key {κ : Type} [Digest κ] (node : Node) : κ := Digest.digest node.fingerprint

/-- Resolved shapes by the whole fingerprint of their node. -/
abbrev Cache := Memo (List UInt8) Shape

/-- What a step of resolution gives, and the state behind it. -/
abbrev Outcome (σ : Type) := Except SchemaError Shape × σ

namespace Form

variable {σ : Type}

/-- The outcome of a part, as that of what is made of it. -/
def wrap (make : Shape → Shape) (outcome : Outcome σ) : Outcome σ :=
  (outcome.1.map make, outcome.2)

/-- The shapes of properties in order, ending at the first that has none. -/
def attributes (next : Node → Path → σ → Outcome σ) (path : Path) (state : σ) :
    List (String × Node) → Except SchemaError (List (String × Shape)) × σ
  | [] => (.ok [], state)
  | (name, node) :: rest =>
    match next node (path.push (.attr name)) state with
    | (.error error, state) => (.error error, state)
    | (.ok shape, state) =>
      match attributes next path state rest with
      | (.error error, state) => (.error error, state)
      | (.ok shapes, state) => (.ok ((name, shape) :: shapes), state)

/-- The shape of a form, whose parts are resolved by `next`. -/
def shape (next : Node → Path → σ → Outcome σ) (form : Form) (path : Path) (state : σ) :
    Outcome σ :=
  match form with
  | settled shape => (.ok shape, state)
  | same node => next node path state
  | list items => wrap .list (next items (path.push (.attr "items")) state)
  | sequence items =>
    wrap (fun item => .tuple [item]) (next items (path.push (.attr "additionalItems")) state)
  | map values => wrap .map (next values (path.push (.attr "additionalProperties")) state)
  | object properties =>
    match attributes next path state properties with
    | (.ok attributes, state) => (.ok (.object attributes), state)
    | (.error error, state) => (.error error, state)
  | fault cause => (.error ⟨path, cause⟩, state)

end Form

section Kept

variable {κ : Type} [DecidableEq κ] [Digest κ]

/-- Keeps the shape of a node, and gives the shape that is kept for it. -/
def keep (node : Node) : Outcome (Memo κ Shape) → Outcome (Memo κ Shape)
  | (.ok shape, cache) =>
    let (kept, cache) := cache.store node.key shape
    (.ok kept, cache)
  | (.error error, cache) => (.error error, cache)

/-- The shape of a node at a path, within a budget of steps. -/
def resolveAt (definitions : List (String × Node)) :
    Nat → Node → Path → Memo κ Shape → Outcome (Memo κ Shape)
  | 0, _, path, cache => (.error ⟨path, .recursionOverrun⟩, cache)
  | budget + 1, node, path, cache =>
    match cache.get? node.key with
    | some shape => (.ok shape, cache)
    | none =>
      keep node ((node.form definitions).shape (resolveAt definitions budget) path cache)

/-- The shape of a node, within a budget of steps. -/
def resolve (definitions : List (String × Node)) (budget : Nat) (node : Node)
    (cache : Memo κ Shape) : Outcome (Memo κ Shape) :=
  resolveAt definitions budget node .root cache

namespace Document

/-- The shape of a node; a kept one is given without a budget. -/
def resolveNode (document : Document) (budget : Nat) (node : Node) (cache : Memo κ Shape) :
    Outcome (Memo κ Shape) :=
  match cache.get? node.key with
  | some shape => (.ok shape, cache)
  | none => keep node (resolve document.definitions budget node cache)

/-- The shape of a definition; substitutions apply to it as to any reference. -/
def resolveDefinition (document : Document) (budget : Nat) (id : String) (cache : Memo κ Shape) :
    Outcome (Memo κ Shape) :=
  document.resolveNode budget (.referenceTo id) cache

/-- The shape of the first definition that describes a resource kind. -/
def resolveKind (document : Document) (budget : Nat) (tag : GroupVersionKind)
    (cache : Memo κ Shape) : Outcome (Memo κ Shape) :=
  match document.definitionForKind? tag with
  | some id => document.resolveDefinition budget id cache
  | none =>
    let reference := tag.group ++ "/" ++ tag.version ++ "/" ++ tag.kind
    (.error ⟨.root, .unknownReference reference⟩, cache)

end Document

end Kept

/-- The budget of a resolver that is given none. -/
def defaultBudget : Nat := 64

end TypedTree.Schema
