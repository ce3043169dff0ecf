import TypedTree.Proofs.Shape.Equality
import TypedTree.Schema.Document
import TypedTree.Schema.Form

/-!
# Agreement of nodes

Nodes agree when they say the same about shapes, up to the order of their properties and to an empty
type, which counts as none. Resolving a node looks no deeper than at its form, and nodes that agree
have forms that match: the same decision, on parts that agree.
-/

namespace TypedTree.Schema

/-- The nodes whose shapes a form needs. -/
def Form.parts : Form → List Node
  | same node | list node | sequence node | map node => [node]
  | object properties => properties.map Prod.snd
  | settled _ | fault _ => []

/-! ## Distinct names -/

/-- Property names are distinct, at every depth. -/
inductive Node.WellFormed : Node → Prop
  | intro {node : Node} (distinct : Entries.Distinct node.properties)
      (items : ∀ part, node.items = some part → WellFormed part)
      (additionalItems : ∀ part, node.additionalItems = some part → WellFormed part)
      (properties : ∀ entry ∈ node.properties, WellFormed entry.2)
      (values : ∀ part, node.additionalProperties = some (.schema part) → WellFormed part)
      (members : ∀ part ∈ node.allOf, WellFormed part) : WellFormed node

/-- Property names are distinct in every definition. -/
def Document.WellFormed (document : Document) : Prop :=
  ∀ entry ∈ document.definitions, entry.2.WellFormed

namespace Node

/-- A node that says nothing of parts has no names to repeat. -/
theorem wellFormed_ofType (kind : String) : (ofType kind).WellFormed := by
  constructor <;> simp [ofType]

/-- A reference has no names to repeat. -/
theorem wellFormed_referenceTo (id : String) : (referenceTo id).WellFormed := by
  constructor <;> simp [referenceTo]

/-- The node that says nothing has no names to repeat. -/
theorem wellFormed_empty : ({} : Node).WellFormed := by
  constructor <;> simp

namespace WellFormed

variable {node part : Node}

/-- The item schema of a well-formed node is well-formed. -/
theorem items (formed : node.WellFormed) (said : node.items = some part) : part.WellFormed := by
  cases formed with
  | intro _ items => exact items part said

/-- The schema for items of any position is well-formed. -/
theorem additionalItems (formed : node.WellFormed) (said : node.additionalItems = some part) :
    part.WellFormed := by
  cases formed with
  | intro _ _ additionalItems => exact additionalItems part said

/-- The properties of a well-formed node have distinct names. -/
theorem distinct (formed : node.WellFormed) : Entries.Distinct node.properties := by
  cases formed with
  | intro distinct => exact distinct

/-- The schemas of properties are well-formed. -/
theorem property (formed : node.WellFormed) {entry : String × Node}
    (held : entry ∈ node.properties) : entry.2.WellFormed := by
  cases formed with
  | intro _ _ _ properties => exact properties entry held

/-- The schema of values beyond the properties is well-formed. -/
theorem values (formed : node.WellFormed)
    (said : node.additionalProperties = some (.schema part)) : part.WellFormed := by
  cases formed with
  | intro _ _ _ _ values => exact values part said

/-- The schema of values beyond the properties is well-formed, also where they are left open. -/
theorem mapValues (formed : node.WellFormed) (said : node.mapValues? = some part) :
    part.WellFormed := by
  unfold mapValues? at said
  split at said
  · cases said
  · cases said
  · obtain rfl := Option.some.inj said
    exact wellFormed_empty
  · rename_i same
    obtain rfl := Option.some.inj said
    exact formed.values same

/-- The members of `allOf` are well-formed. -/
theorem member (formed : node.WellFormed) (held : part ∈ node.allOf) : part.WellFormed := by
  cases formed with
  | intro _ _ _ _ _ members => exact members part held

end WellFormed
end Node

namespace Substitution

/-- A node that stands in for a definition has no names to repeat. -/
theorem wellFormed_fixed {id : String} {node : Node} (stands : forId? id = some (.fixed node)) :
    node.WellFormed := by
  unfold forId? at stands
  split at stands
  · obtain rfl : ({} : Node) = node := by simpa using stands
    exact Node.wellFormed_empty
  · split at stands
    · obtain rfl : Node.ofType "string" = node := by simpa using stands
      exact Node.wellFormed_ofType _
    · split at stands <;> simp at stands

/-- The only adaptation is that of names and schemas. -/
theorem adapted_eq {id : String} {adapt : Node → Node}
    (stands : forId? id = some (.adapted adapt)) : adapt = schemaAsMap := by
  unfold forId? at stands
  split at stands
  · simp at stands
  · split at stands
    · simp at stands
    · split at stands
      · simpa [eq_comm] using stands
      · simp at stands

/-- The item schema of the property `Property` is well-formed. -/
theorem wellFormed_itemOfProperty {definition item : Node} (formed : definition.WellFormed)
    (said : itemOfProperty? definition = some item) : item.WellFormed := by
  obtain ⟨property, found, items⟩ := Option.bind_eq_some_iff.1 said
  exact (formed.property (Entries.mem_of_get? found)).items items

/-- The adapted definition has distinct names where the definition has. -/
theorem wellFormed_schemaAsMap {definition : Node} (formed : definition.WellFormed) :
    (schemaAsMap definition).WellFormed := by
  have fallback (item : Node) (said : itemOfProperty? definition = some item) :
      ((Node.ofType "object").withAdditionalProperties item).WellFormed := by
    constructor <;> simp [Node.ofType, Node.withAdditionalProperties]
    exact wellFormed_itemOfProperty formed said
  refine ⟨?_, fun _ => formed.items, fun _ => formed.additionalItems, ?_,
    fun _ => formed.values, fun _ => formed.member⟩
  · simp only [schemaAsMap]
    split
    · exact Entries.distinct_put _ _ _ formed.distinct
    · exact formed.distinct
  · simp only [schemaAsMap]
    split
    · rename_i item _ said _
      intro entry held
      rcases Entries.mem_put held with rfl | held
      · exact fallback item said
      · exact formed.property held
    · exact fun _ => formed.property

end Substitution

namespace Form

/-- Names are distinct in the parts of a form and in what it settles. -/
inductive WellFormed : Form → Prop
  | settled {shape : Shape} : shape.WellFormed → WellFormed (settled shape)
  | same {node : Node} : node.WellFormed → WellFormed (same node)
  | list {items : Node} : items.WellFormed → WellFormed (list items)
  | sequence {items : Node} : items.WellFormed → WellFormed (sequence items)
  | map {values : Node} : values.WellFormed → WellFormed (map values)
  | object {properties : List (String × Node)} : Entries.Distinct properties →
      (∀ entry ∈ properties, entry.2.WellFormed) → WellFormed (object properties)
  | fault (cause : SchemaError.Cause) : WellFormed (fault cause)

/-- The parts of a well-formed form are well-formed. -/
theorem WellFormed.part {form : Form} {part : Node} (formed : form.WellFormed)
    (held : part ∈ form.parts) : part.WellFormed := by
  cases formed with
  | settled _ | fault _ => cases held
  | same formed | list formed | sequence formed | map formed =>
    obtain rfl := List.mem_singleton.1 held
    exact formed
  | object _ formed =>
    obtain ⟨entry, entered, rfl⟩ := List.mem_map.1 held
    exact formed entry entered

/-- A reference has a well-formed form where the definitions are well-formed. -/
theorem wellFormed_ofReference {definitions : List (String × Node)}
    (table : ∀ entry ∈ definitions, entry.2.WellFormed) (reference : String) :
    (ofReference definitions reference).WellFormed := by
  unfold ofReference
  dsimp only
  split
  · exact .same (Substitution.wellFormed_fixed ‹_›)
  · rename_i stands found
    rw [Substitution.adapted_eq stands]
    exact .same (Substitution.wellFormed_schemaAsMap (table _ (Entries.mem_of_get? found)))
  · exact .same (table _ (Entries.mem_of_get? ‹_›))
  · exact .fault _

/-- An array of well-formed items has a well-formed form. -/
theorem wellFormed_ofArray {node : Node} (formed : node.WellFormed) :
    (ofArray node).WellFormed := by
  unfold ofArray
  split
  · exact .list (formed.items ‹_›)
  · exact .sequence (formed.additionalItems ‹_›)
  · exact .fault _
  · exact .fault _

/-- An object of well-formed properties has a well-formed form. -/
theorem wellFormed_ofObject {node : Node} (formed : node.WellFormed) :
    (ofObject node).WellFormed := by
  unfold ofObject
  split
  · exact .settled .dynamic
  · split
    · exact .settled .dynamic
    · exact .map (formed.mapValues ‹_›)
    · exact .object formed.distinct fun _ => formed.property
    · exact .fault _

/-- A well-formed node that refers to no other has a well-formed form. -/
theorem wellFormed_ofKind {node : Node} (formed : node.WellFormed) :
    (ofKind node).WellFormed := by
  unfold ofKind
  split
  · exact .settled .dynamic
  · exact .settled .string
  · exact .settled .bool
  · exact .settled .number
  · exact .settled .number
  · exact wellFormed_ofArray formed
  · exact wellFormed_ofObject formed
  · exact .fault _

end Form

/-- A well-formed node of a well-formed document has a well-formed form. -/
theorem Node.WellFormed.form {definitions : List (String × Node)} {node : Node}
    (formed : node.WellFormed) (table : ∀ entry ∈ definitions, entry.2.WellFormed) :
    (node.form definitions).WellFormed := by
  unfold Node.form
  split
  · exact Form.wellFormed_ofReference table _
  · rename_i members
    exact .same (formed.member (by simp [members]))
  · split
    · exact .settled .dynamic
    · exact Form.wellFormed_ofKind formed
  · exact .fault _

/-! ## Agreement -/

/-- Agreement on what may stand beyond the properties. -/
inductive Additional.Agrees {α : Type} (related : α → α → Prop) :
    Additional α → Additional α → Prop
  | allowed (permitted : Bool) : Agrees related (.allowed permitted) (.allowed permitted)
  | schema {a b : α} : related a b → Agrees related (.schema a) (.schema b)

/--
Agreement on everything that decides about shapes. Properties are compared by name; format and
resource kinds do not matter, and an empty type counts as none.
-/
inductive Node.Agrees : Node → Node → Prop
  | intro {a b : Node} (reference : a.reference = b.reference)
      (kind : a.declaredKind? = b.declaredKind?) (items : Option.Rel Agrees a.items b.items)
      (additionalItems : Option.Rel Agrees a.additionalItems b.additionalItems)
      (size : a.properties.length = b.properties.length)
      (names : ∀ name ∈ Entries.keys a.properties, name ∈ Entries.keys b.properties)
      (properties : ∀ entry ∈ a.properties, ∀ node,
        Entries.get? b.properties entry.1 = some node → Agrees entry.2 node)
      (additional : Option.Rel (Additional.Agrees Agrees) a.additionalProperties
        b.additionalProperties)
      (members : List.Forall₂ Agrees a.allOf b.allOf)
      (intOrString : a.intOrString = b.intOrString)
      (preserveUnknown : a.preserveUnknown = b.preserveUnknown) : Agrees a b

/-- The same settled shape or fault, or forms of one kind on parts that agree. -/
inductive Form.Matches : Form → Form → Prop
  | settled (shape : Shape) : Matches (settled shape) (settled shape)
  | fault (cause : SchemaError.Cause) : Matches (fault cause) (fault cause)
  | same {a b : Node} : a.Agrees b → Matches (same a) (same b)
  | list {a b : Node} : a.Agrees b → Matches (list a) (list b)
  | sequence {a b : Node} : a.Agrees b → Matches (sequence a) (sequence b)
  | map {a b : Node} : a.Agrees b → Matches (map a) (map b)
  | object {as bs : List (String × Node)} : Entries.Corresponds Node.Agrees as bs →
      Matches (object as) (object bs)

/-- An optional part agrees with itself when it does where it is present. -/
theorem rel_self {α : Type} {related : α → α → Prop} {part : Option α}
    (same : ∀ value, part = some value → related value value) : Option.Rel related part part := by
  cases part with
  | none => exact .none
  | some value => exact .some (same value rfl)

/-- A node of distinct names agrees with itself. -/
theorem Node.WellFormed.agrees_self {node : Node} (formed : node.WellFormed) :
    node.Agrees node := by
  induction formed with
  | intro distinct _ _ _ _ _ items additionalItems properties values members =>
    refine .intro rfl rfl (rel_self items) (rel_self additionalItems) rfl
      (fun _ present => present) (fun entry held other found => ?_)
      (rel_self fun additional said => ?_) (List.forall₂_same.2 members) rfl rfl
    · rw [Entries.get?_of_mem distinct held] at found
      obtain rfl := Option.some.inj found
      exact properties entry held
    · cases additional with
      | allowed permitted => exact .allowed permitted
      | schema part => exact .schema (values part said)

/-- A well-formed form matches itself. -/
theorem Form.WellFormed.matches_self {form : Form} (formed : form.WellFormed) :
    form.Matches form := by
  cases formed with
  | settled _ => exact .settled _
  | same formed => exact .same formed.agrees_self
  | list formed => exact .list formed.agrees_self
  | sequence formed => exact .sequence formed.agrees_self
  | map formed => exact .map formed.agrees_self
  | object distinct formed =>
    exact .object (.refl distinct fun entry held => (formed entry held).agrees_self)
  | fault cause => exact .fault cause

/-- Where agreeing schemas stand beyond the properties, the values have agreeing schemas. -/
theorem Node.mapValues_agree {a b : Node} (additional : Option.Rel
      (Additional.Agrees Node.Agrees) a.additionalProperties b.additionalProperties) :
    Option.Rel Node.Agrees a.mapValues? b.mapValues? := by
  unfold Node.mapValues?
  generalize a.additionalProperties = left, b.additionalProperties = right at additional
  cases additional with
  | none => exact .none
  | some agree =>
    cases agree with
    | allowed permitted =>
      cases permitted with
      | false => exact .none
      | true => exact .some wellFormed_empty.agrees_self
    | schema agree => exact .some agree

namespace Form

variable {a b : Node}

/-- Arrays match when their item schemas agree. -/
theorem ofArray_matches (items : Option.Rel Node.Agrees a.items b.items)
    (additionalItems : Option.Rel Node.Agrees a.additionalItems b.additionalItems) :
    (ofArray a).Matches (ofArray b) := by
  unfold ofArray
  generalize a.items = left, b.items = right at items
  generalize a.additionalItems = leftOpen, b.additionalItems = rightOpen at additionalItems
  cases items with
  | none =>
    cases additionalItems with
    | none => exact .fault _
    | some agree => exact .sequence agree
  | some agree =>
    cases additionalItems with
    | none => exact .list agree
    | some _ => exact .fault _

/-- Objects match when their properties and the schemas of their values agree. -/
theorem ofObject_matches (properties : Entries.Corresponds Node.Agrees a.properties b.properties)
    (values : Option.Rel Node.Agrees a.mapValues? b.mapValues?)
    (preserveUnknown : a.preserveUnknown = b.preserveUnknown) :
    (ofObject a).Matches (ofObject b) := by
  unfold ofObject
  rw [← preserveUnknown]
  generalize a.mapValues? = left, b.mapValues? = right at values
  generalize a.properties = as, b.properties = bs at properties
  split
  · exact .settled _
  · cases as with
    | nil =>
      obtain rfl : bs = [] := List.length_eq_zero_iff.1 properties.1.symm
      cases values with
      | none => exact .settled _
      | some agree => exact .map agree
    | cons first rest =>
      cases bs with
      | nil => cases properties.1
      | cons other others =>
        cases values with
        | none => exact .object properties
        | some _ => exact .fault _

end Form

namespace Node.Agrees

variable {a b : Node}

/-- The properties of agreeing nodes correspond by name. -/
theorem properties (agree : a.Agrees b) :
    Entries.Corresponds Node.Agrees a.properties b.properties := by
  cases agree with
  | intro _ _ _ _ size names properties => exact Entries.corresponds_iff.2 ⟨size, names, properties⟩

/-- Agreeing nodes that refer to no other have matching forms. -/
theorem ofKind_matches (agree : a.Agrees b) : (Form.ofKind a).Matches (Form.ofKind b) := by
  have properties := agree.properties
  cases agree with
  | intro _ kind items additionalItems _ _ _ additional _ _ preserveUnknown =>
    unfold Form.ofKind
    rw [← kind]
    split
    all_goals first
      | exact Form.ofArray_matches items additionalItems
      | exact Form.ofObject_matches properties (Node.mapValues_agree additional) preserveUnknown
      | exact .settled _
      | exact .fault _

/-- Agreeing nodes of two documents have matching forms if equal references have. -/
theorem form (agree : a.Agrees b) {definitions others : List (String × Node)}
    (references : ∀ reference,
      (Form.ofReference definitions reference).Matches (.ofReference others reference)) :
    (a.form definitions).Matches (b.form others) := by
  have own := agree.ofKind_matches
  cases agree with
  | intro reference _ _ _ _ _ _ _ members intOrString =>
    unfold Node.form
    rw [← reference, ← intOrString]
    generalize a.allOf = left, b.allOf = right at members
    cases a.reference with
    | some reference => exact references reference
    | none =>
      cases members with
      | nil =>
        simp only
        split
        · exact .settled _
        · exact own
      | cons first rest =>
        have size := rest.length_eq
        cases rest with
        | nil => exact .same first
        | cons _ _ =>
          simp only [List.length_cons, size]
          exact .fault _

end Node.Agrees
end TypedTree.Schema
