import TypedTree.Proofs.Schema.Failures

/-!
# Where errors of resolution point

An error of resolution has a path, and the path is spelt by a chain of nodes that begins at the
requested one. A property, the items of an array and the values of a map stand under a name, which
is one step of the path. What a reference refers to, what stands in for it and the only member of
`allOf` have no name: they stand in the place of the node itself, but they cost a step of the budget
like the others. The chain ends at a node that is at fault itself, or where the budget is used up.
-/

namespace TypedTree.Schema

namespace Node

/-- The steps of resolution from a node to the next one, each with what it adds to a path. -/
inductive StepsTo (definitions : List (String × Node)) (node : Node) : List Step → Node → Prop
  /-- What a reference refers to, as it is, adapted or substituted, or the only `allOf` member. -/
  | standIn {part : Node} : node.reference ≠ none ∨ node.allOf ≠ [] →
      LeadsTo definitions node part → StepsTo definitions node [] part
  /-- The items of a list. -/
  | items {part : Node} : node.DecidedByKind "array" → node.items = some part →
      node.additionalItems = none → StepsTo definitions node [.attr "items"] part
  /-- The items of a sequence of any length. -/
  | additionalItems {part : Node} : node.DecidedByKind "array" → node.items = none →
      node.additionalItems = some part → StepsTo definitions node [.attr "additionalItems"] part
  /-- A property of an object. -/
  | property {name : String} {part : Node} : node.DecidedByKind "object" →
      node.preserveUnknown = false → node.mapValues? = none → (name, part) ∈ node.properties →
      StepsTo definitions node [.attr name] part
  /-- The values of a map. -/
  | values {part : Node} : node.DecidedByKind "object" → node.preserveUnknown = false →
      node.properties = [] → node.mapValues? = some part →
      StepsTo definitions node [.attr "additionalProperties"] part

/-- A chain of so many steps from a node to another one, with the path that it spells. -/
inductive ChainTo (definitions : List (String × Node)) : Nat → List Step → Node → Node → Prop
  | here (node : Node) : ChainTo definitions 0 [] node node
  | step {count : Nat} {steps path : List Step} {node part last : Node} :
      node.StepsTo definitions steps part → ChainTo definitions count path part last →
      ChainTo definitions (count + 1) (steps ++ path) node last

/-- The types that a node may have. -/
def knownTypes : List String := ["string", "boolean", "number", "integer", "array", "object"]

/-- A node that has no shape because of what it says itself. -/
inductive AtFault (definitions : List (String × Node)) (node : Node) : SchemaError.Cause → Prop
  /-- A reference that no definition and no fixed node answers. -/
  | unknownReference {reference : String} : node.reference = some reference →
      Entries.get? definitions (Reference.target reference) = none →
      (∀ part, Substitution.forId? (Reference.target reference) ≠ some (.fixed part)) →
      AtFault definitions node (.unknownReference reference)
  /-- More than one member of `allOf`. -/
  | severalMembers : node.reference = none → 1 < node.allOf.length →
      AtFault definitions node (.unsupportedShape (.severalMembers node.allOf.length))
  /-- A type that is not known. -/
  | unknownType {name : String} : node.DecidedByKind name → name ∉ knownTypes →
      AtFault definitions node (.unsupportedShape (.unknownType name))
  /-- An array with both kinds of items. -/
  | itemsAndAdditionalItems {items others : Node} : node.DecidedByKind "array" →
      node.items = some items → node.additionalItems = some others →
      AtFault definitions node (.unsupportedShape .itemsAndAdditionalItems)
  /-- An array with no kind of items. -/
  | noItems : node.DecidedByKind "array" → node.items = none → node.additionalItems = none →
      AtFault definitions node (.unsupportedShape .noItems)
  /-- An object with properties and with a schema for further ones. -/
  | propertiesAndValues {values : Node} : node.DecidedByKind "object" →
      node.preserveUnknown = false → node.properties ≠ [] → node.mapValues? = some values →
      AtFault definitions node (.unsupportedShape .propertiesAndValues)

variable {definitions : List (String × Node)} {node part : Node} {before : List (String × Node)}
  {steps : List Step} {cause : SchemaError.Cause}

/-! ## Steps and forms -/

/-- The form of a node whose type decides about its shape is that of its type. -/
theorem DecidedByKind.form_eq {kind : String} (decided : node.DecidedByKind kind) :
    node.form definitions = Form.ofKind node := by
  simp [form, decided.reference, decided.allOf, decided.intOrString]

/-- A node that neither refers to another one nor has a settled shape is decided by its type. -/
theorem decidedByKind {kind : String} (reference : node.reference = none) (allOf : node.allOf = [])
    (plain : ¬ node.intOrString = true) (said : node.declaredKind? = some kind) :
    node.DecidedByKind kind :=
  ⟨reference, allOf, Bool.eq_false_iff.2 plain, said⟩

/-- What the form of an array goes on to, the array steps to. -/
theorem stepsTo_of_ofArray (decided : node.DecidedByKind "array")
    (goes : (Form.ofArray node).GoesOn before steps part) :
    node.StepsTo definitions steps part := by
  unfold Form.ofArray at goes
  split at goes <;> cases goes
  · exact .items decided ‹_› ‹_›
  · exact .additionalItems decided ‹_› ‹_›

/-- What the form of an object goes on to, the object steps to. -/
theorem stepsTo_of_ofObject (decided : node.DecidedByKind "object")
    (goes : (Form.ofObject node).GoesOn before steps part) :
    node.StepsTo definitions steps part := by
  unfold Form.ofObject at goes
  split at goes
  · cases goes
  · rename_i closed
    have closed : node.preserveUnknown = false := Bool.eq_false_iff.2 closed
    split at goes
    · cases goes
    · cases goes
      exact .values decided closed ‹_› ‹_›
    · rename_i values _
      generalize same : node.properties = held at goes
      cases goes with
      | property before name part rest =>
        exact .property decided closed values (by simp [same])
    · cases goes

/-- What the form of a node goes on to, the node steps to. -/
theorem stepsTo_of_goesOn (goes : (node.form definitions).GoesOn before steps part) :
    node.StepsTo definitions steps part := by
  have leads := leadsTo_iff.2 goes.mem
  unfold form at goes
  cases said : node.reference with
  | some reference =>
    rw [said] at goes
    have other : node.reference ≠ none := by simp [said]
    simp only [Form.ofReference] at goes
    split at goes <;> cases goes <;> exact .standIn (.inl other) leads
  | none =>
    rw [said] at goes
    split at goes
    · cases ‹none = some _›
    · rename_i members
      cases goes
      exact .standIn (.inr (by simp [members])) leads
    · rename_i members
      split at goes
      · cases goes
      · rename_i plain
        unfold Form.ofKind at goes
        split at goes
        case h_6 kind => exact stepsTo_of_ofArray (decidedByKind said members plain kind) goes
        case h_7 kind => exact stepsTo_of_ofObject (decidedByKind said members plain kind) goes
        all_goals cases goes
    · cases goes

/-- A reference is at fault where nothing answers it. -/
theorem ofReference_eq_fault {reference : String} :
    Form.ofReference definitions reference = .fault cause ↔
      cause = .unknownReference reference ∧
        Entries.get? definitions (Reference.target reference) = none ∧
        ∀ part, Substitution.forId? (Reference.target reference) ≠ some (.fixed part) := by
  simp only [Form.ofReference]
  generalize Substitution.forId? (Reference.target reference) = substitution
  generalize Entries.get? definitions (Reference.target reference) = held
  cases substitution with
  | none => cases held <;> simp [eq_comm]
  | some substitution =>
    cases substitution with
    | fixed part => simp
    | adapted adapt => cases held <;> simp [eq_comm]

/-- An array whose form is a fault is at fault. -/
theorem atFault_of_ofArray (decided : node.DecidedByKind "array")
    (fault : Form.ofArray node = .fault cause) : node.AtFault definitions cause := by
  unfold Form.ofArray at fault
  split at fault <;> cases fault
  · exact .itemsAndAdditionalItems decided ‹_› ‹_›
  · exact .noItems decided ‹_› ‹_›

/-- An object whose form is a fault is at fault. -/
theorem atFault_of_ofObject (decided : node.DecidedByKind "object")
    (fault : Form.ofObject node = .fault cause) : node.AtFault definitions cause := by
  unfold Form.ofObject at fault
  split at fault
  · cases fault
  · rename_i closed
    split at fault
    case h_4 said empty =>
      cases fault
      exact .propertiesAndValues decided (Bool.eq_false_iff.2 closed) empty said
    all_goals cases fault

/-- The nodes at fault are those whose form is a fault. -/
theorem atFault_iff : node.AtFault definitions cause ↔ node.form definitions = .fault cause := by
  constructor
  · intro fault
    cases fault with
    | unknownReference said missing unanswered =>
      simp only [form, said]
      exact ofReference_eq_fault.2 ⟨rfl, missing, unanswered⟩
    | severalMembers reference several =>
      simp only [form, reference]
      split <;> simp_all
    | unknownType decided unknown =>
      rw [decided.form_eq, Form.ofKind, decided.kind]
      split <;> simp_all [knownTypes]
    | itemsAndAdditionalItems decided items others =>
      simp [decided.form_eq, Form.ofKind, decided.kind, Form.ofArray, items, others]
    | noItems decided items others =>
      simp [decided.form_eq, Form.ofKind, decided.kind, Form.ofArray, items, others]
    | propertiesAndValues decided closed several values =>
      simp only [decided.form_eq, Form.ofKind, decided.kind, Form.ofObject, closed, values]
      split <;> simp_all
  · intro fault
    unfold form at fault
    split at fault
    · obtain ⟨rfl, missing, unanswered⟩ := ofReference_eq_fault.1 fault
      exact .unknownReference ‹_› missing unanswered
    · cases fault
    · rename_i reference members
      split at fault
      · cases fault
      · rename_i plain
        unfold Form.ofKind at fault
        split at fault
        case h_6 kind =>
          exact atFault_of_ofArray (decidedByKind reference members plain kind) fault
        case h_7 kind =>
          exact atFault_of_ofObject (decidedByKind reference members plain kind) fault
        case h_8 kind =>
          cases fault
          refine .unknownType (decidedByKind reference members plain kind) ?_
          simp_all [knownTypes]
        all_goals cases fault
    · rename_i reference single empty
      cases fault
      refine .severalMembers reference ?_
      by_contra few
      have one : node.allOf.length = 1 := by
        have some := List.length_pos_iff.2 empty
        omega
      obtain ⟨only, members⟩ := List.length_eq_one_iff.1 one
      exact single only members

end Node

/-! ## The chain to the node at fault -/

section Kept

variable {κ : Type} [DecidableEq κ] [Digest κ] {definitions : List (String × Node)}
  {node : Node} {path : Path} {budget : Nat} {cache : Memo κ Shape} {error : SchemaError}
  {visits : List Visit}

/--
A failure is located at the end of a chain: what the steps of the chain add to the path of the
node is the path of the error, and either the last node is at fault, or it is as many steps away as
the budget has.
-/
theorem Fails.located (fails : Fails definitions budget node path cache error visits) :
    ∃ count steps last, Node.ChainTo definitions count steps node last ∧
      error.path = path.under steps ∧
      (count < budget ∧ last.AtFault definitions error.cause ∨
        count = budget ∧ error.cause = .recursionOverrun) := by
  induction fails with
  | overrun node path cache =>
    exact ⟨0, [], node, .here node, (Path.under_nil path).symm, .inr ⟨rfl, rfl⟩⟩
  | @fault budget node path cache cause absent fault =>
    refine ⟨0, [], node, .here node, (Path.under_nil path).symm, .inl ⟨budget.succ_pos, ?_⟩⟩
    exact Node.atFault_iff.2 fault
  | through absent goes resolved _ ih =>
    obtain ⟨count, steps, last, chain, spelt, ending⟩ := ih
    refine ⟨count + 1, _, last, .step (Node.stepsTo_of_goesOn goes) chain, ?_, ?_⟩
    · simp [spelt, Path.under]
    · exact ending.imp (.imp_left Nat.succ_lt_succ) (.imp_left (congrArg (· + 1)))

/--
Where a resolution fails, whatever its table holds, a chain of nodes from the requested one spells
the path of the error. Either the last node of the chain is at fault itself, in the way that the
error says and within the budget, or the error is that the budget is used up, and the chain has as
many steps as the budget.
-/
theorem resolve_error_located (definitions : List (String × Node)) (budget : Nat) (node : Node)
    (cache : Memo κ Shape) (error : SchemaError)
    (failed : (resolve definitions budget node cache).1 = .error error) :
    ∃ count last, Node.ChainTo definitions count error.path.steps node last ∧
      (count < budget ∧ last.AtFault definitions error.cause ∨
        count = budget ∧ error.cause = .recursionOverrun) := by
  obtain ⟨visits, fails⟩ := exists_fails (Prod.ext failed rfl)
  obtain ⟨count, steps, last, chain, spelt, ending⟩ := fails.located
  obtain rfl : error.path.steps = steps := by rw [spelt]; rfl
  exact ⟨count, last, chain, ending⟩

/-- Boxes whose environment is described by a definition that is not there. -/
def boxDefinitions : List (String × Node) :=
  [("Box", { allOf := [{ kind := some "object", properties :=
    [("name", .ofType "string"), ("env", (Node.ofType "object").withAdditionalProperties
      { allOf := [.referenceTo "Var"] })] }] })]

/-- A list of boxes. -/
def boxesNode : Node := (Node.ofType "array").withItems (.referenceTo "Box")

/-- The table of a resolver that has met a text before. -/
def textMemo : Memo (List UInt8) Shape := ⟨[((Node.ofType "string").key, .string)]⟩

/--
The reference without a definition is six steps away, and three of them have a name. Within a budget
of seven it is at fault; a budget of five ends at the node before it, which is in the same place.
-/
theorem boxesNode_errors_located :
    (∃ count last, Node.ChainTo boxDefinitions count
        [.attr "items", .attr "env", .attr "additionalProperties"] boxesNode last ∧
      (count < 7 ∧ last.AtFault boxDefinitions (.unknownReference "#/definitions/Var") ∨
        count = 7 ∧ SchemaError.Cause.unknownReference "#/definitions/Var" = .recursionOverrun)) ∧
    ∃ count last, Node.ChainTo boxDefinitions count
        [.attr "items", .attr "env", .attr "additionalProperties"] boxesNode last ∧
      (count < 5 ∧ last.AtFault boxDefinitions .recursionOverrun ∨
        count = 5 ∧ SchemaError.Cause.recursionOverrun = .recursionOverrun) := by
  have missing : (resolve boxDefinitions 7 boxesNode textMemo).1 =
      .error ⟨⟨[.attr "items", .attr "env", .attr "additionalProperties"]⟩,
        .unknownReference "#/definitions/Var"⟩ := by cbv
  have short : (resolve boxDefinitions 5 boxesNode textMemo).1 =
      .error ⟨⟨[.attr "items", .attr "env", .attr "additionalProperties"]⟩,
        .recursionOverrun⟩ := by cbv
  exact ⟨resolve_error_located boxDefinitions 7 boxesNode textMemo _ missing,
    resolve_error_located boxDefinitions 5 boxesNode textMemo _ short⟩

end Kept
end TypedTree.Schema
