import TypedTree.Proofs.Schema.Agreement
import TypedTree.Schema.Resolution

/-!
# Reading back what a node writes

A node writes the fields that it has, and the reader takes absent fields to be empty, so a node is
read back as it was, down to the order of its properties. What may stand beyond the properties is
written without a mark of its kind: a truth value is never taken for a node, since a node is written
as an object even where it says nothing.
-/

namespace TypedTree.Schema

open Json (itemsToScan membersToScan)

/-! ## Fields -/

/-- A key that names a field is read as that field. -/
@[simp]
theorem Field.ofName?_name (field : Field) : Field.ofName? field.name = some field := by
  cases field <;> rfl

/-- What is read while more fields count as read is read while fewer do. -/
theorem readFields_of_subset {mode : Mode} {seen fewer : List Field} (subset : fewer ⊆ seen)
    {draft node : Node} {members : List (Option String × Json.Scan)}
    (read : readFields mode seen draft members = .ok node) :
    readFields mode fewer draft members = .ok node := by
  induction members generalizing seen fewer draft with
  | nil => exact read
  | cons member rest ih =>
    obtain ⟨key, scan⟩ := member
    cases key with
    | none => cases read
    | some name =>
      rw [readFields] at read ⊢
      cases known : Field.ofName? name with
      | none =>
        simp only [known] at read ⊢
        split at read
        · rw [if_pos ‹_›]
          exact ih subset read
        · cases read
      | some field =>
        simp only [known] at read ⊢
        split at read
        · cases read
        · rw [if_neg fun held => ‹field ∉ seen› (subset held)]
          split at read
          · cases read
          · exact ih (List.cons_subset_cons _ subset) read

/--
The value of a field is conveyed by what is written for it: a document is read as the value, and
where nothing is written the value is the one that a draft begins with.
-/
structure Conveyed {α : Type} (document : Option Json) (read : Json.Scan → Reading α)
    (initial value : α) : Prop where
  written : ∀ json, document = some json → read json.toScan = .ok value
  omitted : document = none → initial = value

/-- Behind what is written for a field, a draft without the field has its value. -/
theorem readFields_memberOf {α : Type} {field : Field} {document : Option Json}
    {read : Json.Scan → Reading α} {initial value : α} {seen : List Field} {draft node : Node}
    {rest : List (String × Json)} (update : Node → α → Node)
    (without : update draft initial = draft)
    (reads : ∀ scan, field.read .value scan (fun mode => readNode mode scan)
      (fun mode => readTable mode scan) (fun mode => readList mode scan) draft =
        (read scan).map (update draft))
    (fresh : field ∉ seen) (conveyed : Conveyed document read initial value)
    (others : readFields .value (field :: seen) (update draft value) (membersToScan rest) =
      .ok node) :
    readFields .value seen draft (membersToScan (memberOf field document ++ rest)) = .ok node := by
  cases document with
  | none =>
    rw [← conveyed.omitted rfl, without] at others
    exact readFields_of_subset (List.subset_cons_self _ _) others
  | some json =>
    change readFields .value seen draft ((some field.name, json.toScan) :: membersToScan rest) = _
    rw [readFields, Field.ofName?_name]
    simp only [if_neg fresh, reads, conveyed.written json rfl]
    exact others

/-! ## Values -/

/-- Where no array is written, there are no items. -/
theorem eq_nil_of_arrayOf {items : List Json} (omitted : arrayOf items = none) : items = [] := by
  unfold arrayOf at omitted
  split at omitted
  · exact List.isEmpty_iff.1 ‹_›
  · cases omitted

/-- Where no object is written, there are no members. -/
theorem eq_nil_of_objectOf {members : List (String × Json)} (omitted : objectOf members = none) :
    members = [] := by
  unfold objectOf at omitted
  split at omitted
  · exact List.isEmpty_iff.1 ‹_›
  · cases omitted

/-- A text that may be absent is conveyed. -/
theorem conveyed_text (text : Option String) :
    Conveyed (text.map .text) (fun scan => readOptional scan fun _ => readText scan) none text := by
  cases text with
  | none => exact ⟨nofun, fun _ => rfl⟩
  | some text =>
    refine ⟨fun json written => ?_, nofun⟩
    cases written
    rfl

/-- A flag is conveyed: only one that is set is written. -/
theorem conveyed_flag (flag : Bool) : Conveyed (flagOf flag) readFlag false flag := by
  cases flag with
  | false => exact ⟨nofun, fun _ => rfl⟩
  | true =>
    refine ⟨fun json written => ?_, nofun⟩
    cases written
    rfl

/-- A resource kind is read back. -/
theorem readTag_toJson (tag : GroupVersionKind) : readTag .value tag.toJson.toScan = .ok tag :=
  rfl

/-- Resource kinds are read back, wherever in an array they stand. -/
theorem readTagsFrom_toJson (position : Nat) (tags : List GroupVersionKind) :
    readTagsFrom .value position (itemsToScan (tags.map GroupVersionKind.toJson)) = .ok tags := by
  induction tags generalizing position with
  | nil => rfl
  | cons tag rest ih =>
    simp only [List.map_cons, itemsToScan, readTagsFrom, readTag_toJson, ih]
    rfl

/-- The resource kinds of a definition are conveyed. -/
theorem conveyed_tags (tags : List GroupVersionKind) :
    Conveyed (arrayOf (tags.map GroupVersionKind.toJson)) (readTags .value) [] tags := by
  refine ⟨fun json written => ?_, fun omitted => ?_⟩
  · unfold arrayOf at written
    split at written <;> cases written
    rw [Json.toScan, readTags, Reading.enter]
    simp only [Mode.enter?, readTagsFrom_toJson]
    rfl
  · exact (List.map_eq_nil_iff.1 (eq_nil_of_arrayOf omitted)).symm

namespace Node

/-- The members that a node is written as. -/
def written (node : Node) : List (String × Json) :=
  memberOf .reference (node.reference.map .text) ++ (memberOf .kind (node.kind.map .text) ++
  (memberOf .format (node.format.map .text) ++ (memberOf .items (optionalToJson node.items) ++
  (memberOf .additionalItems (optionalToJson node.additionalItems) ++
  (memberOf .properties (objectOf (tableToJson node.properties)) ++
  (memberOf .additionalProperties (additionalToJson node.additionalProperties) ++
  (memberOf .allOf (arrayOf (listToJson node.allOf)) ++
  (memberOf .intOrString (flagOf node.intOrString) ++
  (memberOf .preserveUnknown (flagOf node.preserveUnknown) ++
  (memberOf .kinds (arrayOf (node.kinds.map GroupVersionKind.toJson)) ++ []))))))))))

/-- A node is written as an object, also where it says nothing. -/
theorem toJson_eq_object (node : Node) : node.toJson = .object node.written := by
  cases node
  simp only [toJson, written, List.append_assoc, List.append_nil]

/-- A node is read back from the document that it writes. -/
def ReadBack (node : Node) : Prop := ofJson node.toJson = .ok node

/-- A part that may be absent is conveyed. -/
theorem conveyed_part {part : Option Node} (back : ∀ node, part = some node → node.ReadBack) :
    Conveyed (optionalToJson part) (fun scan => readOptional scan fun _ => readNode .value scan)
      none part := by
  cases part with
  | none => exact ⟨nofun, fun _ => rfl⟩
  | some node =>
    refine ⟨fun json written => ?_, nofun⟩
    cases written
    have back := back node rfl
    rw [ReadBack, ofJson, toJson_eq_object] at back
    rw [toJson_eq_object, Json.toScan, readOptional, ← Json.toScan, back]
    · rfl
    · simp

/-- What may stand beyond the properties is conveyed, a truth value as one and a node as one. -/
theorem conveyed_additional {additional : Option (Additional Node)}
    (back : ∀ node, additional = some (.schema node) → node.ReadBack) :
    Conveyed (additionalToJson additional)
      (fun scan => readAdditional .value scan fun mode => readNode mode scan) none additional := by
  cases additional with
  | none => exact ⟨nofun, fun _ => rfl⟩
  | some additional =>
    refine ⟨fun json written => ?_, fun omitted => by cases additional <;> cases omitted⟩
    cases additional with
    | allowed permitted =>
      cases written
      rfl
    | schema node =>
      cases written
      have back := back node rfl
      rw [ReadBack, ofJson, toJson_eq_object] at back
      rw [toJson_eq_object, Json.toScan, readAdditional, ← Json.toScan, back]
      · rfl
      all_goals simp

/-- The entries of a table are read back. -/
theorem readEntries_tableToJson {table : List (String × Node)}
    (back : ∀ entry ∈ table, entry.2.ReadBack) :
    readEntries .value (membersToScan (tableToJson table)) = .ok table := by
  induction table with
  | nil => rfl
  | cons entry rest ih =>
    obtain ⟨first, others⟩ := List.forall_mem_cons.1 back
    have first : readNode .value entry.2.toJson.toScan = .ok entry.2 := first
    rw [tableToJson, membersToScan, readEntries]
    simp only [first, ih others]
    rfl

/-- Properties of distinct names are conveyed in their order. -/
theorem conveyed_table {table : List (String × Node)} (distinct : Entries.Distinct table)
    (back : ∀ entry ∈ table, entry.2.ReadBack) :
    Conveyed (objectOf (tableToJson table)) (readTable .value) [] table := by
  refine ⟨fun json written => ?_, fun omitted => ?_⟩
  · unfold objectOf at written
    split at written <;> cases written
    rw [Json.toScan, readTable, Reading.enter]
    simp only [Mode.enter?, readEntries_tableToJson back, Entries.ofList_of_distinct distinct]
    rfl
  · cases table with
    | nil => rfl
    | cons entry rest => cases eq_nil_of_objectOf omitted

/-- The nodes of a list are read back, wherever in an array they stand. -/
theorem readItems_listToJson {nodes : List Node} (position : Nat)
    (back : ∀ node ∈ nodes, node.ReadBack) :
    readItems .value position (itemsToScan (listToJson nodes)) = .ok nodes := by
  induction nodes generalizing position with
  | nil => rfl
  | cons node rest ih =>
    obtain ⟨first, others⟩ := List.forall_mem_cons.1 back
    have first : readNode .value node.toJson.toScan = .ok node := first
    rw [listToJson, itemsToScan, readItems]
    simp only [first, ih (position + 1) others]
    rfl

/-- A list of nodes is conveyed. -/
theorem conveyed_list {nodes : List Node} (back : ∀ node ∈ nodes, node.ReadBack) :
    Conveyed (arrayOf (listToJson nodes)) (readList .value) [] nodes := by
  refine ⟨fun json written => ?_, fun omitted => ?_⟩
  · unfold arrayOf at written
    split at written <;> cases written
    rw [Json.toScan, readList, Reading.enter]
    simp only [Mode.enter?, readItems_listToJson 0 back]
    rfl
  · cases nodes with
    | nil => rfl
    | cons node rest => cases eq_nil_of_arrayOf omitted

/-! ## Nodes -/

/-- A node of distinct property names is read back: each of its fields is conveyed, in order. -/
theorem WellFormed.readBack {node : Node} (formed : node.WellFormed) : node.ReadBack := by
  induction formed with
  | @intro node distinct _ _ _ _ _ items additionalItems properties values members =>
    have fields : readFields .value [] {} (membersToScan node.written) = .ok node := by
      refine readFields_memberOf (fun draft value => { draft with reference := value }) rfl
        (fun _ => rfl) (by decide) (conveyed_text _) ?_
      refine readFields_memberOf (fun draft value => { draft with kind := value }) rfl
        (fun _ => rfl) (by decide) (conveyed_text _) ?_
      refine readFields_memberOf (fun draft value => { draft with format := value }) rfl
        (fun _ => rfl) (by decide) (conveyed_text _) ?_
      refine readFields_memberOf (fun draft value => { draft with items := value }) rfl
        (fun _ => rfl) (by decide) (conveyed_part items) ?_
      refine readFields_memberOf (fun draft value => { draft with additionalItems := value }) rfl
        (fun _ => rfl) (by decide) (conveyed_part additionalItems) ?_
      refine readFields_memberOf (fun draft value => { draft with properties := value }) rfl
        (fun _ => rfl) (by decide) (conveyed_table distinct properties) ?_
      refine readFields_memberOf (fun draft value => { draft with additionalProperties := value })
        rfl (fun _ => rfl) (by decide) (conveyed_additional values) ?_
      refine readFields_memberOf (fun draft value => { draft with allOf := value }) rfl
        (fun _ => rfl) (by decide) (conveyed_list members) ?_
      refine readFields_memberOf (fun draft value => { draft with intOrString := value }) rfl
        (fun _ => rfl) (by decide) (conveyed_flag _) ?_
      refine readFields_memberOf (fun draft value => { draft with preserveUnknown := value }) rfl
        (fun _ => rfl) (by decide) (conveyed_flag _) ?_
      refine readFields_memberOf (fun draft value => { draft with kinds := value }) rfl
        (fun _ => rfl) (by decide) (conveyed_tags _) ?_
      cases node
      rfl
    rw [ReadBack, ofJson, toJson_eq_object, Json.toScan, readNode, Reading.enter]
    simp only [Mode.enter?, fields]
    rfl

/--
A node is read back from the document that it writes exactly as it was, with its properties in the
same order, and so under the same key.
-/
theorem ofJson_toJson {κ : Type} [Digest κ] (node : Node) (formed : node.WellFormed) :
    ofJson node.toJson = .ok node ∧ (ofJson node.toJson).map key = .ok (node.key : κ) := by
  have back : ofJson node.toJson = .ok node := formed.readBack
  exact ⟨back, by rw [back]; rfl⟩

/-- A port as a number or a name, which is closed to anything else. -/
def portNode : Node :=
  { kind := some "object", intOrString := true, additionalProperties := some (.allowed false)
    properties := [("protocol", .ofType "string"), ("number", { format := some "int32" })] }

/-- A service with ports, which stand in every place of a node. -/
def serviceNode : Node :=
  { reference := some "#/definitions/Service", kind := some "", format := some "v1"
    items := some portNode, additionalItems := some {}, allOf := [portNode, .referenceTo "Base"]
    properties := [("spec", portNode), ("any", {})], preserveUnknown := true
    additionalProperties := some (.schema portNode), kinds := [⟨"", "v1", "Service"⟩] }

/-- A service is read back with all that it says, also where that is empty. -/
theorem serviceNode_read_back :
    ofJson serviceNode.toJson = .ok serviceNode ∧
      (ofJson serviceNode.toJson).map key = .ok (serviceNode.key : List UInt8) := by
  have number : ({ format := some "int32" } : Node).WellFormed := by constructor <;> simp
  have port : portNode.WellFormed := by
    constructor <;> simp [portNode, Entries.Distinct, wellFormed_ofType, number]
  refine ofJson_toJson serviceNode (.intro ?_ ?_ ?_ ?_ ?_ ?_) <;>
    simp [serviceNode, Entries.Distinct, port, wellFormed_empty, wellFormed_referenceTo]

end Node

end TypedTree.Schema
