import TypedTree.Proofs.Schema.Lookup
import TypedTree.Proofs.Schema.Reordering

/-!
# A change of every reference

The references of a node may be changed at every depth. Such a change keeps everything else that a
node says: nodes that agree still do, and property names stay distinct. If it keeps the definition
that each reference names, the form of a node is the same behind it, with the change made in its
parts and in the text of its fault.
-/

namespace TypedTree.Schema

/-! ## A change of every reference -/

/-- What may stand beyond the properties, with a change of the schema. -/
def Additional.changed {α β : Type} (change : α → β) : Additional α → Additional β
  | allowed permitted => allowed permitted
  | schema node => schema (change node)

namespace Node

mutual

/-- The node with a change of every reference, at every depth. -/
def renamed (change : String → String) : Node → Node
  | ⟨reference, kind, format, items, additionalItems, properties, additionalProperties, allOf,
      intOrString, preserveUnknown, kinds⟩ =>
    ⟨reference.map change, kind, format, optionalRenamed change items,
      optionalRenamed change additionalItems, tableRenamed change properties,
      additionalRenamed change additionalProperties, listRenamed change allOf, intOrString,
      preserveUnknown, kinds⟩
termination_by structural node => node

/-- A part that may be absent, with a change of every reference. -/
def optionalRenamed (change : String → String) : Option Node → Option Node
  | none => none
  | some node => some (renamed change node)
termination_by structural node => node

/-- Named nodes with a change of every reference. -/
def tableRenamed (change : String → String) : List (String × Node) → List (String × Node)
  | [] => []
  | (name, node) :: rest => (name, renamed change node) :: tableRenamed change rest
termination_by structural table => table

/-- What may stand beyond the properties, with a change of every reference. -/
def additionalRenamed (change : String → String) :
    Option (Additional Node) → Option (Additional Node)
  | none => none
  | some (.allowed permitted) => some (.allowed permitted)
  | some (.schema node) => some (.schema (renamed change node))
termination_by structural additional => additional

/-- Nodes with a change of every reference. -/
def listRenamed (change : String → String) : List Node → List Node
  | [] => []
  | node :: rest => renamed change node :: listRenamed change rest
termination_by structural nodes => nodes

end

variable {change : String → String} {node : Node}

/-- A part that may be absent is changed where it is present. -/
theorem optionalRenamed_eq (part : Option Node) :
    optionalRenamed change part = part.map (renamed change) := by
  cases part <;> rfl

/-- Named nodes are changed under their names. -/
theorem tableRenamed_eq (table : List (String × Node)) :
    tableRenamed change table = table.map fun entry => (entry.1, entry.2.renamed change) := by
  induction table with
  | nil => rfl
  | cons entry rest ih => rw [tableRenamed, ih, List.map_cons]

/-- Of what may stand beyond the properties, a schema is changed. -/
theorem additionalRenamed_eq (additional : Option (Additional Node)) :
    additionalRenamed change additional = additional.map (.changed (renamed change)) := by
  cases additional with
  | none => rfl
  | some additional => cases additional <;> rfl

/-- Nodes are changed one by one. -/
theorem listRenamed_eq (nodes : List Node) :
    listRenamed change nodes = nodes.map (renamed change) := by
  induction nodes with
  | nil => rfl
  | cons node rest ih => rw [listRenamed, ih, List.map_cons]

/-- A change of every reference is one of the node's own and of those in its parts. -/
theorem renamed_eq (node : Node) :
    node.renamed change =
      { node with
        reference := node.reference.map change
        items := node.items.map (renamed change)
        additionalItems := node.additionalItems.map (renamed change)
        properties := node.properties.map fun entry => (entry.1, entry.2.renamed change)
        additionalProperties := node.additionalProperties.map (.changed (renamed change))
        allOf := node.allOf.map (renamed change) } := by
  cases node
  rw [renamed, optionalRenamed_eq, optionalRenamed_eq, tableRenamed_eq, additionalRenamed_eq,
    listRenamed_eq]

/-- What the references of a node satisfy, at every depth. -/
inductive Refers (holds : String → Prop) : Node → Prop
  | intro {node : Node} (reference : ∀ text, node.reference = some text → holds text)
      (items : ∀ part, node.items = some part → Refers holds part)
      (additionalItems : ∀ part, node.additionalItems = some part → Refers holds part)
      (properties : ∀ entry ∈ node.properties, Refers holds entry.2)
      (values : ∀ part, node.additionalProperties = some (.schema part) → Refers holds part)
      (members : ∀ part ∈ node.allOf, Refers holds part) : Refers holds node

/-- A node that says only its type does not refer to anything. -/
theorem refers_ofType (holds : String → Prop) (kind : String) : (ofType kind).Refers holds := by
  constructor <;> simp [ofType]

/-- The node that says nothing does not refer to anything. -/
theorem refers_empty (holds : String → Prop) : ({} : Node).Refers holds := by
  constructor <;> simp

/-- What is undone for the references of a node is undone for the node. -/
theorem Refers.renamed_renamed {holds : String → Prop} {back : String → String}
    (refers : node.Refers holds) (undone : ∀ text, holds text → back (change text) = text) :
    (node.renamed change).renamed back = node := by
  induction refers with
  | @intro node reference _ _ _ _ _ items additionalItems properties values members =>
    obtain ⟨own, kind, format, itemsPart, additionalItemsPart, table, additional, allOf,
      intOrString, preserveUnknown, kinds⟩ := node
    rw [renamed_eq, renamed_eq]
    simp only [mk.injEq, true_and, and_true]
    refine ⟨?_, ?_, ?_, ?_, ?_, ?_⟩
    · cases own with
      | none => rfl
      | some text => exact congrArg some (undone text (reference text rfl))
    · cases itemsPart with
      | none => rfl
      | some part => exact congrArg some (items part rfl)
    · cases additionalItemsPart with
      | none => rfl
      | some part => exact congrArg some (additionalItems part rfl)
    · rw [List.map_map]
      refine (List.map_congr_left fun entry held => ?_).trans (List.map_id table)
      exact Prod.ext rfl (properties entry held)
    · cases additional with
      | none => rfl
      | some additional =>
        cases additional with
        | allowed permitted => rfl
        | schema part => exact congrArg (some ∘ Additional.schema) (values part rfl)
    · rw [List.map_map]
      exact (List.map_congr_left members).trans (List.map_id allOf)

/-! ## What a change keeps -/

section Fields

variable (change : String → String) (node : Node)

@[simp]
theorem renamed_reference : (node.renamed change).reference = node.reference.map change := by
  rw [renamed_eq]

@[simp]
theorem renamed_kind : (node.renamed change).kind = node.kind := by
  rw [renamed_eq]

@[simp]
theorem renamed_format : (node.renamed change).format = node.format := by
  rw [renamed_eq]

@[simp]
theorem renamed_kinds : (node.renamed change).kinds = node.kinds := by
  rw [renamed_eq]

@[simp]
theorem renamed_items : (node.renamed change).items = node.items.map (renamed change) := by
  rw [renamed_eq]

@[simp]
theorem renamed_additionalItems :
    (node.renamed change).additionalItems = node.additionalItems.map (renamed change) := by
  rw [renamed_eq]

@[simp]
theorem renamed_properties :
    (node.renamed change).properties =
      node.properties.map fun entry => (entry.1, entry.2.renamed change) := by
  rw [renamed_eq]

@[simp]
theorem renamed_additionalProperties :
    (node.renamed change).additionalProperties =
      node.additionalProperties.map (.changed (renamed change)) := by
  rw [renamed_eq]

@[simp]
theorem renamed_allOf : (node.renamed change).allOf = node.allOf.map (renamed change) := by
  rw [renamed_eq]

@[simp]
theorem renamed_intOrString : (node.renamed change).intOrString = node.intOrString := by
  rw [renamed_eq]

@[simp]
theorem renamed_preserveUnknown :
    (node.renamed change).preserveUnknown = node.preserveUnknown := by
  rw [renamed_eq]

@[simp]
theorem renamed_declaredKind? : (node.renamed change).declaredKind? = node.declaredKind? := by
  simp [declaredKind?]

@[simp]
theorem renamed_empty : ({} : Node).renamed change = {} := rfl

@[simp]
theorem renamed_mapValues? :
    (node.renamed change).mapValues? = node.mapValues?.map (renamed change) := by
  unfold mapValues?
  rw [renamed_additionalProperties]
  cases node.additionalProperties with
  | none => rfl
  | some additional =>
    cases additional with
    | allowed permitted => cases permitted <;> rfl
    | schema values => rfl

end Fields

/-- Property names stay distinct. -/
theorem WellFormed.renamed (formed : node.WellFormed) : (node.renamed change).WellFormed := by
  induction formed with
  | intro distinct _ _ _ _ _ items additionalItems properties values members =>
    refine .intro ?_ ?_ ?_ ?_ ?_ ?_
    · simpa [Entries.Distinct] using distinct
    · simpa using items
    · simpa using additionalItems
    · rw [renamed_properties]
      exact List.forall_mem_map.2 properties
    · simp only [renamed_additionalProperties, Option.map_eq_some_iff]
      rintro _ ⟨additional, said, same⟩
      cases additional with
      | allowed permitted => cases same
      | schema part =>
        cases same
        exact values part said
    · simpa using members

/-- Optional parts are related after a change where they are before. -/
theorem rel_map {α β : Type} {related : α → α → Prop} {after : β → β → Prop} {f : α → β}
    {a b : Option α} (rel : Option.Rel related a b)
    (step : ∀ x y, a = some x → b = some y → related x y → after (f x) (f y)) :
    Option.Rel after (a.map f) (b.map f) := by
  cases rel with
  | none => exact .none
  | some related => exact .some (step _ _ rfl rfl related)

/-- Nodes that agree do so after a change of the references in both. -/
theorem WellFormed.agrees_renamed {a b : Node} (formed : a.WellFormed) (agree : a.Agrees b) :
    (a.renamed change).Agrees (b.renamed change) := by
  induction formed generalizing b with
  | @intro a distinct _ _ _ _ _ items additionalItems properties values members =>
    have corresponds : Entries.Corresponds Agrees (a.renamed change).properties
        (b.renamed change).properties := by
      rw [renamed_properties, renamed_properties]
      exact agree.properties.map _ _ fun entry held _ _ => properties entry held
    obtain ⟨size, names, parts⟩ := Entries.corresponds_iff.1 corresponds
    cases agree with
    | intro reference kind ownItems ownAdditional _ _ _ additional ownMembers intOrString
        preserveUnknown =>
      refine .intro ?_ ?_ ?_ ?_ size names parts ?_ ?_ ?_ ?_
      · simp [reference]
      · simpa using kind
      · simpa using rel_map ownItems fun part _ said _ => items part said
      · simpa using rel_map ownAdditional fun part _ said _ => additionalItems part said
      · simp only [renamed_additionalProperties]
        refine rel_map additional fun _ _ said _ step => ?_
        cases step with
        | allowed permitted => exact .allowed permitted
        | schema step => exact .schema (values _ said step)
      · simp only [renamed_allOf, List.forall₂_map_left_iff, List.forall₂_map_right_iff]
        exact Paired.imp ownMembers fun part held _ _ => members part held
      · simpa using intOrString
      · simpa using preserveUnknown

/-- What the references of a node satisfy, those of the schema of its values satisfy. -/
theorem Refers.mapValues {holds : String → Prop} {part : Node} (refers : node.Refers holds)
    (said : node.mapValues? = some part) : part.Refers holds := by
  unfold mapValues? at said
  split at said
  · cases said
  · cases said
  · cases said
    exact refers_empty holds
  · cases said
    cases refers with
    | intro _ _ _ _ values => exact values _ ‹_›

/-- What the references of a definition satisfy, those of the adapted one satisfy. -/
theorem Refers.schemaAsMap {holds : String → Prop} (refers : node.Refers holds) :
    (Substitution.schemaAsMap node).Refers holds := by
  cases refers with
  | intro reference items additionalItems properties values members =>
    refine .intro reference items additionalItems ?_ values members
    simp only [Substitution.schemaAsMap]
    split
    · rename_i item _ said _
      intro entry held
      rcases Entries.mem_put held with rfl | held
      · obtain ⟨property, found, own⟩ := Option.bind_eq_some_iff.1 said
        have inner : item.Refers holds := by
          cases properties _ (Entries.mem_of_get? found) with
          | intro _ items => exact items item own
        constructor <;> simp [ofType, withAdditionalProperties, inner]
      · exact properties entry held
    · exact properties

/-- What the references of a node satisfy, those of the nodes to which it leads satisfy. -/
theorem Refers.of_leadsTo {holds : String → Prop} {definitions : List (String × Node)}
    {part : Node} (refers : node.Refers holds)
    (table : ∀ entry ∈ definitions, entry.2.Refers holds) (leads : node.LeadsTo definitions part) :
    part.Refers holds := by
  have mapValues (said : node.mapValues? = some part) := refers.mapValues said
  cases refers with
  | intro reference items additionalItems properties values members =>
    cases leads with
    | fixed _ stands =>
      rcases Substitution.fixed_eq stands with rfl | rfl
      · exact refers_empty holds
      · exact refers_ofType holds _
    | adapted _ stands found =>
      rw [Substitution.adapted_eq stands]
      exact (table _ (Entries.mem_of_get? found)).schemaAsMap
    | definition _ _ found => exact table _ (Entries.mem_of_get? found)
    | member _ only => exact members _ (by simp [only])
    | items _ said _ => exact items _ said
    | additionalItems _ _ said => exact additionalItems _ said
    | property _ _ _ held => exact properties _ held
    | values _ _ _ said => exact mapValues said

end Node

/-! ## Forms -/

/-- A cause with a change of the reference that it names. -/
def SchemaError.Cause.renamed (change : String → String) : SchemaError.Cause → SchemaError.Cause
  | unknownReference reference => unknownReference (change reference)
  | cause => cause

/-- An error with a change of the reference that it names. -/
def SchemaError.renamed (change : String → String) (error : SchemaError) : SchemaError :=
  ⟨error.path, error.cause.renamed change⟩

/-- Definitions with a change of every reference. -/
def Document.renamed (change : String → String) (document : Document) : Document :=
  ⟨document.definitions.map fun entry => (entry.1, entry.2.renamed change)⟩

namespace Form

/-- A form with a change of every reference in its parts and in its fault. -/
def renamed (change : String → String) : Form → Form
  | settled shape => settled shape
  | same node => same (node.renamed change)
  | list items => list (items.renamed change)
  | sequence items => sequence (items.renamed change)
  | map values => map (values.renamed change)
  | object properties => object (properties.map fun entry => (entry.1, entry.2.renamed change))
  | fault cause => fault (cause.renamed change)

variable {change : String → String} {node : Node}

/-- An array keeps its form. -/
theorem ofArray_renamed : ofArray (node.renamed change) = (ofArray node).renamed change := by
  unfold ofArray
  rw [Node.renamed_items, Node.renamed_additionalItems]
  cases node.items <;> cases node.additionalItems <;> rfl

/-- An object keeps its form. -/
theorem ofObject_renamed : ofObject (node.renamed change) = (ofObject node).renamed change := by
  unfold ofObject
  rw [Node.renamed_preserveUnknown, Node.renamed_properties, Node.renamed_mapValues?]
  split
  · rfl
  · cases node.properties <;> cases node.mapValues? <;> rfl

/-- A node that refers to no other keeps its form. -/
theorem ofKind_renamed : ofKind (node.renamed change) = (ofKind node).renamed change := by
  unfold ofKind
  rw [Node.renamed_declaredKind?]
  split
  case h_6 => exact ofArray_renamed
  case h_7 => exact ofObject_renamed
  all_goals rfl

end Form

namespace Substitution

/-- The item schema of the property `Property` is changed like its definition. -/
theorem itemOfProperty?_renamed {change : String → String} (definition : Node) :
    itemOfProperty? (definition.renamed change) =
      (itemOfProperty? definition).map (Node.renamed change) := by
  simp only [itemOfProperty?, Node.renamed_properties, Entries.get?_map]
  cases Entries.get? definition.properties "Property" with
  | none => rfl
  | some property => simp

/-- A definition is adapted in the same way where its references are changed. -/
theorem schemaAsMap_renamed {change : String → String} (definition : Node) :
    schemaAsMap (definition.renamed change) = (schemaAsMap definition).renamed change := by
  rw [Node.renamed_eq (schemaAsMap definition)]
  simp only [schemaAsMap, itemOfProperty?_renamed, Node.renamed_properties, Entries.get?_map,
    Node.renamed_declaredKind?, Node.renamed_kind, Node.mk.injEq, Node.renamed_reference,
    Node.renamed_items, Node.renamed_additionalItems, Node.renamed_additionalProperties,
    Node.renamed_allOf, Node.renamed_intOrString, Node.renamed_preserveUnknown,
    Node.renamed_format, Node.renamed_kinds, true_and, and_true]
  cases itemOfProperty? definition with
  | none => rfl
  | some item =>
    cases Entries.get? definition.properties "Schema" with
    | none => rfl
    | some schema =>
      exact (Entries.put_map (Node.renamed change) definition.properties "Schema"
        ((Node.ofType "object").withAdditionalProperties item)).symm

end Substitution

/-- A changed reference that names the same definition has the same form. -/
theorem Form.ofReference_renamed {change : String → String} (document : Document)
    {reference : String}
    (target : Reference.target (change reference) = Reference.target reference) :
    ofReference (document.renamed change).definitions (change reference) =
      (ofReference document.definitions reference).renamed change := by
  simp only [ofReference, target, Document.renamed, Entries.get?_map]
  cases stands : Substitution.forId? (Reference.target reference) with
  | none => cases Entries.get? document.definitions (Reference.target reference) <;> rfl
  | some substitution =>
    cases substitution with
    | fixed node =>
      rcases Substitution.fixed_eq stands with rfl | rfl
      · rfl
      · rfl
    | adapted adapt =>
      rw [Substitution.adapted_eq stands]
      cases Entries.get? document.definitions (Reference.target reference) with
      | none => rfl
      | some definition => exact congrArg Form.same (Substitution.schemaAsMap_renamed definition)

/-- A node whose changed reference names the same definition has the same form. -/
theorem Node.form_renamed {change : String → String} (document : Document) {node : Node}
    (target : ∀ reference, node.reference = some reference →
      Reference.target (change reference) = Reference.target reference) :
    (node.renamed change).form (document.renamed change).definitions =
      (node.form document.definitions).renamed change := by
  unfold Node.form
  rw [renamed_reference, renamed_allOf, renamed_intOrString]
  cases said : node.reference with
  | some reference => exact Form.ofReference_renamed document (target reference said)
  | none =>
    cases node.allOf with
    | nil =>
      simp only [Option.map_none, List.map_nil]
      split
      · rfl
      · exact Form.ofKind_renamed
    | cons first rest =>
      cases rest with
      | nil => rfl
      | cons second rest => simp [Form.renamed, SchemaError.Cause.renamed]

/-- The parts of a form behind a change are those before it, each changed. -/
theorem Form.parts_renamed (change : String → String) (form : Form) :
    (form.renamed change).parts = form.parts.map (Node.renamed change) := by
  cases form with
  | settled | same | list | sequence | map | fault => rfl
  | object properties => simp [renamed, parts]

end TypedTree.Schema
