import TypedTree.Proofs.Schema.Fingerprint
import TypedTree.Proofs.Schema.Reordering

/-!
# The definition that is adapted

Of the definition in which a list of names stands beside a map of schemas, a reference gives an
adapted copy: `Schema` is a map of what the items of `Property` are, and the copy is an object, also
where the definition does not say so. Everything else is as in the definition, attribute by
attribute and in its order. The definition itself is resolved as it stands wherever it is not
reached through its identifier, also with a table in which the shape of the copy is kept.
-/

namespace TypedTree.Schema

/-- A node with a reference that names the identifier. -/
def Node.RefersTo (node : Node) (id : String) : Prop :=
  ∃ reference, node.reference = some reference ∧ Reference.target reference = id

/--
The definition in which names stand beside schemas, where it may be an object and nothing that it
says decides about its shape before its type does.
-/
structure Document.NamesBesideSchemas (document : Document) (definition : Node) : Prop where
  defined : document.definition? Substitution.namesOrSchemas = some definition
  reference : definition.reference = none
  allOf : definition.allOf = []
  intOrString : definition.intOrString = false
  preserveUnknown : definition.preserveUnknown = false
  kind : definition.kind = none ∨ definition.kind = some "" ∨ definition.kind = some "object"

/-! ## Objects and maps -/

/-- The shape of a node is found at every path, within every larger budget. -/
theorem Node.Gives.resolveFreely {definitions : List (String × Node)} {budget larger : Nat}
    {node : Node} {shape : Shape} (given : node.Gives definitions budget shape)
    (more : budget ≤ larger) (path : Path) :
    Schema.resolveFreely definitions larger node path = .ok shape := by
  have found := (resolveFreely_eq_ok budget node path shape).2 given
  rw [resolveFreely_extends more node path (found ▸ Definite.ok shape), found]

/-- An object with properties is made of these, unless it has a schema for other values, too. -/
theorem Form.ofObject_of_properties {node : Node} (closed : node.preserveUnknown = false)
    (proper : node.properties ≠ []) :
    ofObject node =
      if node.mapValues?.isNone then object node.properties
      else fault (.unsupportedShape .propertiesAndValues) := by
  unfold ofObject
  rw [closed]
  cases said : node.properties with
  | nil => exact absurd said proper
  | cons first rest => cases node.mapValues? <;> rfl

section Decided

variable {definitions : List (String × Node)} {node item : Node} {budget : Nat} {shape : Shape}

/-- The form of an object is that of its properties and values. -/
theorem Node.DecidedByKind.form_object (decided : node.DecidedByKind "object") :
    node.form definitions = Form.ofObject node := by
  simp [Node.form, decided.reference, decided.allOf, decided.intOrString, Form.ofKind, decided.kind]

/-- The shape of an object with properties has an attribute for each of them, in their order. -/
theorem Node.DecidedByKind.gives_object (decided : node.DecidedByKind "object")
    (closed : node.preserveUnknown = false) (proper : node.properties ≠ [])
    (given : node.Gives definitions budget shape) :
    ∃ inner < budget, ∃ attributes, shape = .object attributes ∧
      Entries.Aligned (Node.Gives definitions inner) node.properties attributes := by
  cases budget with
  | zero => cases given
  | succ inner =>
    rw [Node.Gives, decided.form_object, Form.ofObject_of_properties closed proper] at given
    split at given
    · cases given with
      | object aligned => exact ⟨inner, Nat.lt_succ_self inner, _, rfl, aligned⟩
    · cases given

/-- The shape of a map is that of its values. -/
theorem Node.gives_map
    (given :
      ((Node.ofType "object").withAdditionalProperties item).Gives definitions budget shape) :
    ∃ inner < budget, ∃ values, shape = .map values ∧ item.Gives definitions inner values := by
  cases budget with
  | zero => cases given
  | succ inner =>
    change (Form.map item).Gives (Node.Gives definitions inner) shape at given
    cases given with
    | map values => exact ⟨inner, Nat.lt_succ_self inner, _, rfl, values⟩

end Decided

/-! ## The adapted copy -/

namespace Substitution

/-- The definition has a schema for the items of `Property`, and a property `Schema`. -/
def Applies (definition item : Node) : Prop :=
  (∃ property, Entries.get? definition.properties "Property" = some property ∧
    property.items = some item) ∧ "Schema" ∈ Entries.keys definition.properties

/-- Only the definition of names beside schemas is adapted. -/
theorem forId?_namesOrSchemas : forId? namesOrSchemas = some (.adapted schemaAsMap) := rfl

/-- Where the items of `Property` have a schema, `Schema` is a map of what they are. -/
theorem properties_schemaAsMap {definition item : Node} (applies : Applies definition item) :
    (schemaAsMap definition).properties =
      Entries.put definition.properties "Schema"
        ((Node.ofType "object").withAdditionalProperties item) := by
  obtain ⟨⟨property, found, items⟩, present⟩ := applies
  obtain ⟨schema, there⟩ := Entries.exists_get? present
  have own : itemOfProperty? definition = some item := by
    rw [itemOfProperty?, found]
    exact items
  simp only [schemaAsMap, own, there]

/-- Otherwise the properties are those of the definition. -/
theorem properties_schemaAsMap_of_not {definition : Node}
    (nowhere : ∀ item, ¬ Applies definition item) :
    (schemaAsMap definition).properties = definition.properties := by
  unfold schemaAsMap
  dsimp only
  split
  · rename_i item schema said found
    obtain ⟨property, there, items⟩ := Option.bind_eq_some_iff.1 said
    have present : "Schema" ∈ Entries.keys definition.properties :=
      List.mem_map_of_mem (Entries.mem_of_get? found)
    exact absurd ⟨⟨property, there, items⟩, present⟩ (nowhere item)
  · rfl

end Substitution

namespace Document.NamesBesideSchemas

variable {document : Document} {definition : Node}

/-- A reference to the definition has the shape of the adapted copy. -/
theorem form (beside : document.NamesBesideSchemas definition) {node : Node}
    (refers : node.RefersTo Substitution.namesOrSchemas) :
    node.form document.definitions = .same (Substitution.schemaAsMap definition) := by
  obtain ⟨reference, said, target⟩ := refers
  have defined : Entries.get? document.definitions Substitution.namesOrSchemas = some definition :=
    beside.defined
  unfold Node.form Form.ofReference
  simp only [said, target, Substitution.forId?_namesOrSchemas, defined]

/-- The copy is an object. -/
theorem kind_schemaAsMap (beside : document.NamesBesideSchemas definition) :
    (Substitution.schemaAsMap definition).kind = some "object" := by
  rcases beside.kind with silent | empty | object
  · simp [Substitution.schemaAsMap, Node.declaredKind?, silent]
  · simp [Substitution.schemaAsMap, Node.declaredKind?, empty]
  · simp [Substitution.schemaAsMap, Node.declaredKind?, object]

/-- Nothing that the copy says decides before its type does. -/
theorem decided (beside : document.NamesBesideSchemas definition) :
    (Substitution.schemaAsMap definition).DecidedByKind "object" where
  reference := beside.reference
  allOf := beside.allOf
  intOrString := beside.intOrString
  kind := by rw [Node.declaredKind?, beside.kind_schemaAsMap]; rfl

/-- Where there is nothing to adapt, the copy is the definition, read as an object. -/
theorem schemaAsMap_of_not (beside : document.NamesBesideSchemas definition)
    (nowhere : ∀ item, ¬ Substitution.Applies definition item) :
    Substitution.schemaAsMap definition = { definition with kind := some "object" } := by
  have properties := Substitution.properties_schemaAsMap_of_not nowhere
  have kind := beside.kind_schemaAsMap
  show { definition with
    kind := (Substitution.schemaAsMap definition).kind,
    properties := (Substitution.schemaAsMap definition).properties } = _
  rw [properties, kind]

end Document.NamesBesideSchemas

/-! ## What the copy is resolved to -/

section Adapting

variable (definitions : List (String × Node)) (budget : Nat)

/--
An object with attributes of the names of the properties, in their order: `Schema` is a map of what
an item is, and every other attribute is what its own property is.
-/
def MapsSchema (properties : List (String × Node)) (item : Node) (shape : Shape) : Prop :=
  ∃ attributes values, shape = .object attributes ∧
    Entries.keys attributes = Entries.keys properties ∧
    (∀ path, resolveFreely definitions budget item path = .ok values) ∧
    Entries.get? attributes "Schema" = some (.map values) ∧
    ∀ entry ∈ properties, entry.1 ≠ "Schema" → ∃ own,
      Entries.get? attributes entry.1 = some own ∧
        ∀ path, resolveFreely definitions budget entry.2 path = .ok own

/--
What a definition is by way of its identifier: with `Schema` as a map where there is something to
adapt, and read as an object where there is not.
-/
structure AdaptedShape (definition : Node) (shape : Shape) : Prop where
  mapped : ∀ item, Substitution.Applies definition item →
    MapsSchema definitions budget definition.properties item shape
  plain : (∀ item, ¬ Substitution.Applies definition item) →
    ∀ path, resolveFreely definitions budget { definition with kind := some "object" } path =
      .ok shape

end Adapting

section Resolving

variable {document : Document} {definition node : Node} {budget : Nat} {path : Path} {shape : Shape}

/-- Where there is something to adapt, the copy has one attribute that the definition has not. -/
theorem Document.NamesBesideSchemas.mapsSchema (beside : document.NamesBesideSchemas definition)
    (distinct : Entries.Distinct definition.properties) {item : Node}
    (applies : Substitution.Applies definition item)
    (given : (Substitution.schemaAsMap definition).Gives document.definitions budget shape) :
    MapsSchema document.definitions budget definition.properties item shape := by
  have properties := Substitution.properties_schemaAsMap applies
  have keys : Entries.keys (Substitution.schemaAsMap definition).properties =
      Entries.keys definition.properties := by
    rw [properties, Entries.keys_put, if_pos applies.2]
  have proper : (Substitution.schemaAsMap definition).properties ≠ [] := by
    intro empty
    rw [empty] at keys
    have present := applies.2
    rw [← keys] at present
    cases present
  have closed : (Substitution.schemaAsMap definition).preserveUnknown = false :=
    beside.preserveUnknown
  obtain ⟨inner, fewer, attributes, rfl, aligned⟩ :=
    beside.decided.gives_object closed proper given
  have each {name : String} {part : Node}
      (found : Entries.get? (Substitution.schemaAsMap definition).properties name = some part) :
      ∃ own, Entries.get? attributes name = some own ∧ part.Gives document.definitions inner own :=
    aligned.get? found
  rw [properties] at each
  obtain ⟨mapped, schema, own⟩ := each (by rw [Entries.get?_put, if_pos rfl])
  obtain ⟨least, fewest, values, rfl, held⟩ := Node.gives_map own
  refine ⟨attributes, values, rfl, aligned.keys_eq.symm.trans keys,
    held.resolveFreely (by omega), schema, fun entry entered other => ?_⟩
  obtain ⟨own, found, given⟩ := @each entry.1 entry.2 (by
    rw [Entries.get?_put, if_neg other.symm, Entries.get?_of_mem distinct entered])
  exact ⟨own, found, given.resolveFreely fewer.le⟩

/-- A reference to the definition is resolved to the shape of the adapted copy. -/
theorem Document.NamesBesideSchemas.adaptedShape (beside : document.NamesBesideSchemas definition)
    (formed : document.WellFormed) (refers : node.RefersTo Substitution.namesOrSchemas)
    (found : resolveFreely document.definitions budget node path = .ok shape) :
    AdaptedShape document.definitions budget definition shape := by
  have distinct := (formed _ (Entries.mem_of_get? beside.defined)).distinct
  cases budget with
  | zero => cases found
  | succ inner =>
    rw [resolveFreely, beside.form refers, Form.freely_same] at found
    have given := (resolveFreely_eq_ok _ _ _ _).1 found
    have more : inner ≤ inner + 1 := Nat.le_succ inner
    refine ⟨fun item applies => ?_, fun nowhere => ?_⟩
    · refine beside.mapsSchema distinct applies ?_
      exact (resolveFreely_eq_ok _ _ path _).1 (given.resolveFreely more path)
    · rw [← beside.schemaAsMap_of_not nowhere]
      exact given.resolveFreely more

/-- A node that has the form of another one has the shape of that. -/
theorem resolveFreely_of_same {definitions : List (String × Node)}
    (stands : node = definition ∨ node.form definitions = .same definition)
    (found : resolveFreely definitions budget node path = .ok shape) :
    resolveFreely definitions budget definition path = .ok shape := by
  rcases stands with rfl | same
  · exact found
  cases budget with
  | zero => cases found
  | succ inner =>
    rw [resolveFreely, same, Form.freely_same] at found
    exact ((resolveFreely_eq_ok _ _ _ _).1 found).resolveFreely (Nat.le_succ inner) path

variable {κ : Type} [DecidableEq κ] [Digest κ]

/--
After other calls, a call gives shapes that are equal to what the node is said to be within some
budget; and where resolution without a table has a shape within the budget of the call, the node is
said to be that, and the call gives an equal one.
-/
def Call.Answers (κ : Type) [DecidableEq κ] [Digest κ] (document : Document) (before : List Call)
    (call : Call) (node : Node) (is : Nat → Shape → Prop) : Prop :=
  (∀ shape, (call.run document (runAll document before : Memo κ Shape)).1 = .ok shape →
    ∃ budget own, is budget own ∧ own == shape) ∧
  ∀ own, resolveFreely document.definitions call.budget node .root = .ok own →
    is call.budget own ∧ ∃ shape,
      (call.run document (runAll document before : Memo κ Shape)).1 = .ok shape ∧ own == shape

/-- After any calls, a call gives what the node is said to be where free resolution gives it. -/
theorem Call.answers {call : Call} {is : Nat → Shape → Prop} (formed : document.WellFormed)
    (before : List Call) (asked : call.node? document = some node)
    (wellFormed : ∀ other ∈ call :: before, ∀ node, other.node? document = some node →
      node.WellFormed)
    (agree : ∀ a b, Reached document (call :: before) a → Reached document (call :: before) b →
      (a.key : κ) = b.key → a.Agrees b)
    (said : ∀ budget own, resolveFreely document.definitions budget node .root = .ok own →
      is budget own) : call.Answers κ document before node is := by
  have tracks := run_tracks formed before asked wellFormed agree
  refine ⟨fun shape given => ?_, fun own found => ?_⟩
  · rw [given] at tracks
    obtain ⟨budget, similar⟩ := tracks.settles (.ok shape)
    obtain ⟨own, found, same⟩ := similar.ok_right
    exact ⟨budget, own, said budget own found, same⟩
  · have similar := tracks.complete (found ▸ .ok own)
    rw [found] at similar
    exact ⟨said call.budget own found, similar.ok_left⟩

/--
Within every budget, a reference to the definition of names beside schemas that has a shape without
a table has the shape of the definition with `Schema` as a map of what the items of `Property` are,
and with nothing else changed, or, where one of these is missing, that of the definition read as an
object. After any calls on the document, which share a table, a call for such a reference gives this
shape, and a call for the definition, or for what stands for it without its identifier, gives the
shape that the definition has as it stands.
-/
theorem adaptation_changes_one_attribute (beside : document.NamesBesideSchemas definition)
    (formed : document.WellFormed) :
    (∀ (node : Node) (budget : Nat) (path : Path) (shape : Shape),
      node.RefersTo Substitution.namesOrSchemas →
      resolveFreely document.definitions budget node path = .ok shape →
      AdaptedShape document.definitions budget definition shape) ∧
    ∀ (before : List Call) (call : Call) (node : Node), call.node? document = some node →
      (∀ other ∈ call :: before, ∀ node, other.node? document = some node → node.WellFormed) →
      (∀ a b, Call.Reached document (call :: before) a →
        Call.Reached document (call :: before) b → (a.key : κ) = b.key → a.Agrees b) →
      (node.RefersTo Substitution.namesOrSchemas → call.Answers κ document before node
        fun budget shape => AdaptedShape document.definitions budget definition shape) ∧
      (node = definition ∨ node.form document.definitions = .same definition →
        call.Answers κ document before node fun budget shape =>
          resolveFreely document.definitions budget definition .root = .ok shape) := by
  refine ⟨fun node budget path shape => beside.adaptedShape formed,
    fun before call node asked wellFormed agree => ⟨fun refers => ?_, fun stands => ?_⟩⟩
  · exact Call.answers formed before asked wellFormed agree fun budget own =>
      beside.adaptedShape formed refers
  · exact Call.answers formed before asked wellFormed agree fun budget own =>
      resolveFreely_of_same stands

end Resolving

/-! ## A definition and its copy -/

/-- A list of names. -/
def labelsNode : Node := { kind := some "array", items := some (.referenceTo "Name") }

/-- Names beside schemas and a mark; as it stands, the schemas may be anything. -/
def labelledNode : Node :=
  { kind := some "object",
    properties := [("Schema", .referenceTo (Substitution.extensions ++ "JSONSchemaProps")),
      ("mark", .ofType "boolean"), ("Property", labelsNode)] }

/-- The same object with its schemas as a map of names. -/
def mappedNode : Node :=
  { kind := some "object",
    properties :=
      [("Schema", (Node.ofType "object").withAdditionalProperties (.referenceTo "Name")),
        ("mark", .ofType "boolean"), ("Property", labelsNode)] }

/-- A document with the definition of names beside schemas, and with the same under another name. -/
def labelledDocument : Document :=
  ⟨[("Name", .ofType "string"), (Substitution.namesOrSchemas, labelledNode),
    ("Copied", labelledNode)]⟩

/-- A call for the definition by its identifier. -/
def adaptedCall : Call := .resolveDefinition 9 Substitution.namesOrSchemas

/-- A call for the definition by its other name. -/
def copiedCall : Call := .resolveDefinition 9 "Copied"

/-- The nodes that the calls come to. -/
def labelledNodes : List Node :=
  [.referenceTo Substitution.namesOrSchemas, mappedNode, .referenceTo "Copied", labelledNode,
    (Node.ofType "object").withAdditionalProperties (.referenceTo "Name"), labelsNode,
    .referenceTo "Name", .ofType "string", .ofType "boolean",
    .referenceTo (Substitution.extensions ++ "JSONSchemaProps"), {}]

/-- The forms of the nodes. -/
theorem form_labelledNodes :
    labelledNodes.map (fun node => node.form labelledDocument.definitions) =
      [.same mappedNode, .object mappedNode.properties, .same labelledNode,
        .object labelledNode.properties, .map (.referenceTo "Name"), .list (.referenceTo "Name"),
        .same (.ofType "string"), .settled .string, .settled .bool, .same {},
        .settled .dynamic] := by
  cbv

/-- The parts of the nodes are among them. -/
theorem closed_labelledNodes :
    ∀ node ∈ labelledNodes, ∀ part ∈ (node.form labelledDocument.definitions).parts,
      part ∈ labelledNodes := by
  intro node held part below
  have among := List.mem_map_of_mem (f := fun node => node.form labelledDocument.definitions) held
  rw [form_labelledNodes] at among
  simp only [List.mem_cons, List.not_mem_nil, or_false] at among
  rcases among with same | same | same | same | same | same | same | same | same | same | same <;>
    rw [same] at below <;>
    simp only [Form.parts, mappedNode, labelledNode, List.map_cons, List.map_nil, List.mem_cons,
      List.not_mem_nil, or_false] at below
  all_goals first
    | (obtain rfl := below; simp [labelledNodes, mappedNode, labelledNode])
    | (rcases below with rfl | rfl | rfl <;> simp [labelledNodes])

/-- The nodes have distinct names and are legible. -/
theorem proper_labelledNodes : ∀ node ∈ labelledNodes, node.WellFormed ∧ node.Legible := by
  have reference (id : String) : (Node.referenceTo id).WellFormed ∧ (Node.referenceTo id).Legible :=
    ⟨Node.wellFormed_referenceTo id, by constructor <;> simp [Node.referenceTo]⟩
  have kind (kind : String) : (Node.ofType kind).WellFormed ∧ (Node.ofType kind).Legible :=
    ⟨Node.wellFormed_ofType kind, by constructor <;> simp [Node.ofType]⟩
  have empty : ({} : Node).WellFormed ∧ ({} : Node).Legible :=
    ⟨Node.wellFormed_empty, by constructor <;> simp⟩
  have labels : labelsNode.WellFormed ∧ labelsNode.Legible := by
    constructor <;> constructor <;> simp [labelsNode, reference]
  have apart : ¬ BeginsWithTag "#/definitions/Name" := by
    rintro ⟨c, begins, _, small⟩
    obtain rfl : '#' = c := Option.some.inj begins
    exact absurd small (by decide)
  have map : ((Node.ofType "object").withAdditionalProperties (.referenceTo "Name")).WellFormed ∧
      ((Node.ofType "object").withAdditionalProperties (.referenceTo "Name")).Legible := by
    constructor <;> constructor
    case right.references =>
      intro part reference same said
      obtain rfl := Additional.schema.inj (Option.some.inj same)
      obtain rfl := Option.some.inj said
      exact apart
    all_goals simp [Node.ofType, Node.withAdditionalProperties, reference]
  have labelled : labelledNode.WellFormed ∧ labelledNode.Legible := by
    constructor <;> constructor <;>
      simp [labelledNode, reference, labels, kind, Entries.distinct_cons]
  have mapped : mappedNode.WellFormed ∧ mappedNode.Legible := by
    constructor <;> constructor <;>
      simp [mappedNode, map, labels, kind, Entries.distinct_cons]
  simp [labelledNodes, reference, kind, empty, labels, map, labelled, mapped]

/-- Of the nodes, those of one key agree. -/
theorem agree_labelledNodes {a b : Node} (left : a ∈ labelledNodes) (right : b ∈ labelledNodes)
    (same : (a.key : List UInt8) = b.key) : a.Agrees b := by
  obtain ⟨formed, legible⟩ := proper_labelledNodes a left
  obtain ⟨other, legibleOther⟩ := proper_labelledNodes b right
  exact formed.agrees_of_fingerprint other legible legibleOther same

/-- In the document, names stand beside schemas. -/
theorem namesBesideSchemas_labelledDocument :
    labelledDocument.NamesBesideSchemas labelledNode where
  defined := by cbv
  reference := rfl
  allOf := rfl
  intOrString := rfl
  preserveUnknown := rfl
  kind := .inr (.inr rfl)

/-- The shape of the definition, with its schemas as they are given. -/
def labelledShape (schemas : Shape) : Shape :=
  .object [("Schema", schemas), ("mark", .bool), ("Property", .list .string)]

/--
By its identifier the definition has its schemas as a map, and by its other name it has them as any
value, whichever of the two is resolved first.
-/
theorem labels_mapped_by_identifier_only :
    AdaptedShape labelledDocument.definitions 9 labelledNode (labelledShape (.map .string)) ∧
    (∃ shape, (adaptedCall.run labelledDocument
        (Call.runAll labelledDocument [copiedCall] : Memo (List UInt8) Shape)).1 = .ok shape ∧
      labelledShape (.map .string) == shape) ∧
    resolveFreely labelledDocument.definitions 9 labelledNode .root =
      .ok (labelledShape .dynamic) ∧
    ∃ shape, (copiedCall.run labelledDocument
        (Call.runAll labelledDocument [adaptedCall] : Memo (List UInt8) Shape)).1 = .ok shape ∧
      labelledShape .dynamic == shape := by
  have formed : labelledDocument.WellFormed := by
    have labelled : labelledNode ∈ labelledNodes := by simp [labelledNodes]
    simp [Document.WellFormed, labelledDocument, Node.wellFormed_ofType,
      (proper_labelledNodes _ labelled).1]
  have changes := adaptation_changes_one_attribute (κ := List UInt8)
    namesBesideSchemas_labelledDocument formed
  have asked {calls : List Call} (only : ∀ call ∈ calls, call = copiedCall ∨ call = adaptedCall) :
      ∀ call ∈ calls, ∀ node, call.node? labelledDocument = some node → node ∈ labelledNodes := by
    intro call made node same
    rcases only call made with rfl | rfl <;> obtain rfl := Option.some.inj same <;>
      simp [labelledNodes]
  have reached {calls : List Call} (only : ∀ call ∈ calls, call = copiedCall ∨ call = adaptedCall)
      {node : Node} (met : Call.Reached labelledDocument calls node) : node ∈ labelledNodes :=
    met.mem_of_closed (asked only) closed_labelledNodes
  have adapted := changes.2 [copiedCall] adaptedCall (.referenceTo Substitution.namesOrSchemas) rfl
    (fun other made node same =>
      (proper_labelledNodes node (asked (by simp) other made node same)).1)
    (fun a b left right =>
      agree_labelledNodes (reached (by simp) left) (reached (by simp) right))
  have copied := changes.2 [adaptedCall] copiedCall (.referenceTo "Copied") rfl
    (fun other made node same =>
      (proper_labelledNodes node (asked (by simp) other made node same)).1)
    (fun a b left right =>
      agree_labelledNodes (reached (by simp) left) (reached (by simp) right))
  have mapped := (adapted.1 ⟨_, rfl, by cbv⟩).2 (labelledShape (.map .string)) (by cbv)
  have stands := (copied.2 (.inr (by cbv))).2 (labelledShape .dynamic) (by cbv)
  exact ⟨mapped.1, mapped.2, stands.1, stands.2⟩

end TypedTree.Schema
