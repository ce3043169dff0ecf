import TypedTree.Proofs.Schema.Chains
import TypedTree.Proofs.Schema.Fingerprint
import TypedTree.Proofs.Schema.Memoization
import TypedTree.Proofs.Schema.References

/-!
# Definitions by their identifiers

A definition is looked up by a reference that is made of its identifier, without escapes, and that
is read with them. So the lookup comes to the definition exactly when the identifier is read back
from the reference as it stands. Then resolving the reference is resolving the definition with one
step less: whenever a table holds a shape for the reference, it holds the same one for the
definition.
-/

namespace TypedTree.Schema

/-! ## Identifiers that are read back -/

namespace Reference

/--
An identifier that a reference to it names: without escapes, and without slashes if it has a line
feed, since then the reference is read as one of another form.
-/
def Plain (id : String) : Prop :=
  if '\n' ∈ id.toList then '/' ∉ id.toList
  else ¬ ['~', '0'] <:+: id.toList ∧ ¬ ['~', '1'] <:+: id.toList

/-- The identifier of a reference that is made of one is the latter exactly when it is plain. -/
theorem target_eq_iff (id : String) : target ("#/definitions/" ++ id) = id ↔ Plain id := by
  have segment : lastSegment ("#/definitions/".toList ++ id.toList) = lastSegment id.toList :=
    lastSegment_append "#/definitions".toList id.toList
  rw [target, String.toList_append, tableEntry?_append (by simp [tables]), ← String.toList_inj,
    String.toList_ofList]
  unfold Plain
  by_cases feed : '\n' ∈ id.toList
  · have bare : (id.toList.isEmpty || id.toList.contains '\n') = true := by simp [feed]
    rw [if_pos bare, if_pos feed]
    exact segment ▸ lastSegment_eq_self_iff id.toList
  · rw [if_neg feed]
    by_cases empty : id.toList = []
    · simp [empty, lastSegment]
    · have proper : ¬ (id.toList.isEmpty || id.toList.contains '\n') = true := by
        simp [feed, empty]
      rw [if_neg proper]
      exact Json.Pointer.unescape_eq_self_iff id.toList

end Reference

/-! ## What resolution keeps -/

section Kept

variable {κ : Type} [DecidableEq κ] [Digest κ] {definitions : List (String × Node)} {node : Node}
  {key other : κ} {budget : Nat} {path : Path} {cache after : Memo κ Shape} {shape : Shape}

/-- The shape that is given for a node is the one that its key holds. -/
theorem get?_keep {outcome : Outcome (Memo κ Shape)}
    (kept : keep node outcome = (.ok shape, after)) : after.get? node.key = some shape := by
  obtain ⟨outcome, cache⟩ := outcome
  cases outcome with
  | error cause => cases kept
  | ok own =>
    rw [keep, Prod.mk.injEq, Except.ok.injEq] at kept
    rw [← kept.2, Memo.get?_store, if_pos rfl, kept.1]

/-- The shape that resolution gives for a node is the one that its key holds from then on. -/
theorem get?_resolveAt (given : resolveAt definitions budget node path cache = (.ok shape, after)) :
    after.get? node.key = some shape := by
  cases budget with
  | zero => cases given
  | succ budget =>
    rw [resolveAt] at given
    split at given
    · rename_i own found
      rw [Prod.mk.injEq, Except.ok.injEq] at given
      rw [← given.2, found, given.1]
    · exact get?_keep given

/-- A shape is kept as it is where the key holds no other one. -/
theorem keep_fst (alike : ∀ kept, cache.get? node.key = some kept → kept = shape) :
    (keep node (.ok shape, cache)).1 = .ok shape := by
  show Except.ok (cache.store node.key shape).1 = .ok shape
  unfold Memo.store
  cases present : cache.get? node.key with
  | none => rfl
  | some kept => rw [alike kept present]

/-- A shape that a table holds under the one key it holds under the other, too. -/
def Mirrored (key other : κ) (cache : Memo κ Shape) : Prop :=
  ∀ shape, cache.get? key = some shape → cache.get? other = some shape

/-- A table stays mirrored if under the one key only what the other holds is kept. -/
theorem Mirrored.keep {outcome : Outcome (Memo κ Shape)} (mirrored : Mirrored key other outcome.2)
    (alike : node.key = key → ∀ shape, outcome.1 = .ok shape →
      outcome.2.get? other = some shape) :
    Mirrored key other (Schema.keep node outcome).2 := by
  obtain ⟨outcome, cache⟩ := outcome
  cases outcome with
  | error cause => exact mirrored
  | ok shape =>
    intro kept found
    show (cache.store node.key shape).2.get? other = some kept
    change (cache.store node.key shape).2.get? key = some kept at found
    -- what the key of the node holds in the end is what the other key holds already
    have settled (there : cache.get? other = some kept)
        (given : (cache.store node.key shape).1 = kept) :
        (cache.store node.key shape).2.get? other = some kept := by
      rw [Memo.get?_store, given, there, ite_self]
    rw [Memo.get?_store] at found
    by_cases here : node.key = key
    · rw [if_pos here] at found
      have given := Option.some.inj found
      have there : cache.get? other = some shape := alike here shape rfl
      refine settled ?_ given
      cases present : cache.get? node.key with
      | none => rwa [← given, Memo.store, present]
      | some own =>
        rw [← given, Memo.store, present]
        exact mirrored own (here ▸ present)
    · rw [if_neg here] at found
      have there := mirrored kept found
      by_cases same : node.key = other
      · refine settled there ?_
        rw [Memo.store, same, there]
      · rw [Memo.get?_store, if_neg same, there]

/--
Where only nodes that have the form of a reference to a definition share its key, whatever shape is
kept for the reference is kept for the definition.
-/
theorem resolveAt_mirrored {definition : Node} (budget : Nat) {node : Node}
    (apart : ∀ part, Relation.ReflTransGen (Node.LeadsTo definitions) node part → part.key = key →
      part.form definitions = .same definition)
    (path : Path) (cache : Memo κ Shape) (before : Mirrored key definition.key cache) :
    Mirrored key definition.key (resolveAt definitions budget node path cache).2 := by
  induction budget generalizing node path cache with
  | zero => exact before
  | succ budget ih =>
    rw [resolveAt]
    split
    · exact before
    · refine Mirrored.keep ?_ fun here shape given => ?_
      · refine Form.shape_keeps _ (fun part held path state => ?_) path cache before
        exact ih (fun other steps => apart other (.head (Node.leadsTo_iff.2 held) steps)) path state
      · rw [apart node .refl here] at given ⊢
        exact get?_resolveAt (Prod.ext given rfl)

end Kept

/-! ## Lookup -/

/-- A fixed node that stands in for a definition says nothing, or that it is a string. -/
theorem Substitution.fixed_eq {id : String} {node : Node}
    (stands : forId? id = some (.fixed node)) : node = {} ∨ node = .ofType "string" := by
  unfold forId? at stands
  split at stands
  · simp_all
  · split at stands
    · simp_all
    · split at stands <;> simp at stands

namespace Document

section Lookup

variable {κ : Type} [DecidableEq κ] [Digest κ] {document : Document} {id : String} {node : Node}

/-- A reference has the form of the definition that it names. -/
theorem form_of_reference {definitions : List (String × Node)} {reference : String}
    {definition : Node} (said : node.reference = some reference)
    (own : Substitution.forId? (Reference.target reference) = none)
    (found : Entries.get? definitions (Reference.target reference) = some definition) :
    node.form definitions = .same definition := by
  unfold Node.form Form.ofReference
  simp only [said, own, found]

/-- A lookup keeps the outcome of the form of the reference, once more as its own. -/
theorem resolveDefinition_succ (budget : Nat) :
    document.resolveDefinition (budget + 1) id (.empty : Memo κ Shape) =
      keep (.referenceTo id) (keep (.referenceTo id)
        ((Form.ofReference document.definitions ("#/definitions/" ++ id)).shape
          (resolveAt document.definitions budget) .root .empty)) := rfl

/--
A lookup has the outcome of the definition that the reference names, with one step more, as long as
only nodes with that reference share its key.
-/
theorem resolveDefinition_of_target (budget : Nat)
    (own : Substitution.forId? (Reference.target ("#/definitions/" ++ id)) = none)
    (found : document.definition? (Reference.target ("#/definitions/" ++ id)) = some node)
    (apart : ∀ part, Relation.ReflTransGen (Node.LeadsTo document.definitions) node part →
      (part.key : κ) = (Node.referenceTo id).key →
      part.reference = (Node.referenceTo id).reference) :
    (document.resolveDefinition (budget + 1) id (.empty : Memo κ Shape)).1 =
      (resolve document.definitions budget node (.empty : Memo κ Shape)).1 := by
  have form : (Node.referenceTo id).form document.definitions = .same node :=
    form_of_reference rfl own found
  have mirrored : Mirrored (Node.referenceTo id).key (node.key : κ)
      (resolveAt document.definitions budget node .root .empty).2 :=
    resolveAt_mirrored budget (fun part steps same => form_of_reference (apart part steps same)
      own found) .root .empty fun _ absent => nomatch absent
  have same : Form.ofReference document.definitions ("#/definitions/" ++ id) = .same node := form
  rw [resolveDefinition_succ, same, Form.shape, resolve]
  cases inner : resolveAt document.definitions budget node .root (.empty : Memo κ Shape) with
  | mk outcome after =>
    rw [inner] at mirrored
    cases outcome with
    | error cause => rfl
    | ok shape =>
      have held := get?_resolveAt inner
      have first : (keep (.referenceTo id) (.ok shape, after)).1 = .ok shape := by
        refine keep_fst fun kept present => ?_
        exact Option.some.inj ((mirrored kept present).symm.trans held)
      have pair : keep (.referenceTo id) (.ok shape, after) =
          (.ok shape, (keep (.referenceTo id) (.ok shape, after)).2) := Prod.ext first rfl
      have again := get?_keep pair
      rw [pair]
      exact keep_fst fun kept present => Option.some.inj (present.symm.trans again)

/-- The first definition with a tag is the one that the tag names. -/
theorem definitionForKind?_of_first {tag : GroupVersionKind} {before after : List (String × Node)}
    (split : document.definitions = before ++ (id, node) :: after) (carries : tag ∈ node.kinds)
    (first : ∀ entry ∈ before, tag ∉ entry.2.kinds) :
    document.definitionForKind? tag = some id := by
  have none : before.find? (fun entry => tag ∈ entry.2.kinds) = none := by
    simpa using first
  simp [definitionForKind?, split, List.find?_append, none, carries]

/-- Where the reference names no definition, either a fixed node answers or it is unknown. -/
theorem resolveDefinition_of_missing (budget : Nat)
    (missing : document.definition? (Reference.target ("#/definitions/" ++ id)) = none) :
    (∃ shape, (document.resolveDefinition (budget + 2) id (.empty : Memo κ Shape)).1 = .ok shape) ∨
      (document.resolveDefinition (budget + 2) id (.empty : Memo κ Shape)).1 =
        .error ⟨.root, .unknownReference ("#/definitions/" ++ id)⟩ := by
  rw [resolveDefinition_succ]
  unfold Form.ofReference
  rw [definition?] at missing
  dsimp only
  rw [missing]
  cases stands : Substitution.forId? (Reference.target ("#/definitions/" ++ id)) with
  | none => exact .inr rfl
  | some substitution =>
    cases substitution with
    | adapted adapt => exact .inr rfl
    | fixed node =>
      rcases Substitution.fixed_eq stands with rfl | rfl
      · exact .inl ⟨_, rfl⟩
      · exact .inl ⟨_, rfl⟩

/--
With an empty table, looking up an identifier resolves its definition with one step less, and so
does a resource kind for the first definition that carries it, as long as the identifier is plain
and no other node shares the key of the reference. For every other identifier there is a document
that defines it and in which the lookup has another outcome.
-/
theorem resolveDefinition_exactly_plain (own : Substitution.forId? id = none) :
    (Reference.Plain id → ∀ (document : Document) (node : Node) (budget : Nat),
      document.definition? id = some node →
      (∀ part, Relation.ReflTransGen (Node.LeadsTo document.definitions) node part →
        (part.key : κ) = (Node.referenceTo id).key →
        part.reference = (Node.referenceTo id).reference) →
      (document.resolveDefinition (budget + 1) id (.empty : Memo κ Shape)).1 =
        (resolve document.definitions budget node (.empty : Memo κ Shape)).1 ∧
      ∀ tag before after, document.definitions = before ++ (id, node) :: after →
        tag ∈ node.kinds → (∀ entry ∈ before, tag ∉ entry.2.kinds) →
        (document.resolveKind (budget + 1) tag (.empty : Memo κ Shape)).1 =
          (resolve document.definitions budget node (.empty : Memo κ Shape)).1) ∧
    (¬ Reference.Plain id → ∃ (document : Document) (node : Node) (budget : Nat),
      document.definition? id = some node ∧
      (document.resolveDefinition (budget + 1) id (.empty : Memo κ Shape)).1 ≠
        (resolve document.definitions budget node (.empty : Memo κ Shape)).1) := by
  constructor
  · intro plain document node budget found apart
    have target := (Reference.target_eq_iff id).2 plain
    have looked : (document.resolveDefinition (budget + 1) id (.empty : Memo κ Shape)).1 =
        (resolve document.definitions budget node (.empty : Memo κ Shape)).1 :=
      resolveDefinition_of_target budget (target.symm ▸ own) (target.symm ▸ found) apart
    refine ⟨looked, fun tag before after split carries first => ?_⟩
    have described := definitionForKind?_of_first split carries first
    rw [resolveKind, described]
    exact looked
  · intro other
    have target : Reference.target ("#/definitions/" ++ id) ≠ id :=
      fun same => other ((Reference.target_eq_iff id).1 same)
    refine ⟨⟨[(id, .ofType "null")]⟩, .ofType "null", 1, by simp [definition?, Entries.get?], ?_⟩
    have missing : (⟨[(id, .ofType "null")]⟩ : Document).definition?
        (Reference.target ("#/definitions/" ++ id)) = none := by
      simp [definition?, Entries.get?, target.symm]
    -- the definition is at fault for its type, and the reference is not
    have fault : (resolve [(id, .ofType "null")] 1 (.ofType "null") (.empty : Memo κ Shape)).1 =
        .error ⟨.root, .unsupportedShape (.unknownType "null")⟩ := rfl
    rw [fault]
    rcases resolveDefinition_of_missing (κ := κ) 0 missing with ⟨shape, given⟩ | unknown
    · rw [given]
      simp
    · rw [unknown]
      simp

end Lookup

/-- A slash in an identifier may be written in a way that is not read back. -/
theorem escaped_name_not_found :
    ¬ ∀ (document : Document) (id : String) (node : Node) (budget : Nat),
      Substitution.forId? id = none → document.definition? id = some node →
      (document.resolveDefinition (budget + 1) id (.empty : Cache)).1 =
        (resolve document.definitions budget node (.empty : Cache)).1 := by
  intro always
  have same := always ⟨[("a~1b", .ofType "string")]⟩ "a~1b" (.ofType "string") 63 rfl rfl
  have found : (resolve [("a~1b", .ofType "string")] 63 (.ofType "string") (.empty : Cache)).1 =
      .ok .string := rfl
  have missed : ((⟨[("a~1b", .ofType "string")]⟩ : Document).resolveDefinition 64 "a~1b"
      (.empty : Cache)).1 = .error ⟨.root, .unknownReference "#/definitions/a~1b"⟩ := rfl
  rw [missed, found] at same
  cases same

end Document

/-! ## An identifier with a slash and a tilde -/

/-- A reference is read back from the fingerprint of a node. -/
theorem Node.reference_eq_of_fingerprint {a b : Node} (same : a.fingerprint = b.fingerprint) :
    a.reference = b.reference := by
  have fields : a.fromReference [] = b.fromReference [] := by
    rw [← fingerprint_append, ← fingerprint_append, same]
  have reference := (optional_append_inj (R := Eq) (fun _ _ _ _ _ _ => textBytes_append_inj)
    (a.behind_fromKind []) (b.behind_fromKind []) fields).1
  exact eq_of_rel reference

/-- The kind of widgets. -/
def widgetTag : GroupVersionKind := ⟨"shop", "v1", "Widget"⟩

/-- A widget has a name and parts. -/
def widgetNode : Node :=
  { kind := some "object",
    properties := [("name", .ofType "string"),
      ("parts", { kind := some "array", items := some (.referenceTo "Part") })],
    kinds := [widgetTag] }

/-- Parts, widgets, and a later definition of their kind. -/
def widgetDocument : Document :=
  ⟨[("Part", .ofType "string"), ("shop/v1~2.Widget", widgetNode),
    ("Widget", { kinds := [widgetTag] })]⟩

/-- Widgets are found by their identifier and by their kind. -/
theorem widgets_looked_up :
    (Substitution.forId? "shop/v1~2.Widget" = none ∧ Reference.Plain "shop/v1~2.Widget") ∧
    (widgetDocument.resolveDefinition 5 "shop/v1~2.Widget" (.empty : Cache)).1 =
      .ok (.object [("name", .string), ("parts", .list .string)]) ∧
    (widgetDocument.resolveKind 5 widgetTag (.empty : Cache)).1 =
      .ok (.object [("name", .string), ("parts", .list .string)]) := by
  have own : Substitution.forId? "shop/v1~2.Widget" = none := rfl
  have plain : Reference.Plain "shop/v1~2.Widget" := by
    unfold Reference.Plain
    decide
  have apart (part : Node)
      (_ : Relation.ReflTransGen (Node.LeadsTo widgetDocument.definitions) widgetNode part)
      (same : (part.key : List UInt8) = (Node.referenceTo "shop/v1~2.Widget").key) :
      part.reference = (Node.referenceTo "shop/v1~2.Widget").reference :=
    Node.reference_eq_of_fingerprint same
  have looked (budget : Nat) :=
    (Document.resolveDefinition_exactly_plain (κ := List UInt8) own).1 plain widgetDocument
      widgetNode budget rfl apart
  have shape : (resolve widgetDocument.definitions 4 widgetNode (.empty : Cache)).1 =
      .ok (.object [("name", .string), ("parts", .list .string)]) := by cbv
  refine ⟨⟨own, plain⟩, (looked 4).1.trans shape, ?_⟩
  have described := (looked 4).2 widgetTag [("Part", .ofType "string")]
    [("Widget", { kinds := [widgetTag] })] rfl (by simp [widgetNode])
    (by simp [Node.ofType])
  exact described.trans shape

end TypedTree.Schema
