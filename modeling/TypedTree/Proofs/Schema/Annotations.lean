import TypedTree.Proofs.Schema.Rewriting

/-!
# Annotations of schemas

A schema may say more than a node keeps: under a key that belongs to no field, anything may stand.
Such members are skipped wherever an object is read as a node, at whatever depth and between
whichever other members, so adding them changes neither the node that is read nor the fault that is
found first. They are not added to tables of named nodes, where every key is a name, or to resource
kinds.
-/

namespace TypedTree.Schema

mutual

/--
A document with members added to objects that are read as nodes. Which objects these are is decided
by what the document is read as.
-/
inductive Annotated : Role → Json → Json → Prop
  /-- A document to which nothing is added. -/
  | same (role : Role) (document : Json) : Annotated role document document
  /-- A node, to which members may be added. -/
  | node {members others : List (String × Json)} : AnnotatedMembers .node members others →
      Annotated .node (.object members) (.object others)
  /-- A node that is written as an array of its fields. -/
  | slots {items others : List Json} :
      AnnotatedItems (Field.all.map Field.role) .other items others →
      Annotated .node (.array items) (.array others)
  /-- Named nodes. -/
  | table {members others : List (String × Json)} : AnnotatedMembers .table members others →
      Annotated .table (.object members) (.object others)
  /-- A list of nodes. -/
  | list {items others : List Json} : AnnotatedItems [] .node items others →
      Annotated .list (.array items) (.array others)

/-- Members with annotated values, and for a node with members added under keys of no field. -/
inductive AnnotatedMembers : Role → List (String × Json) → List (String × Json) → Prop
  | nil (role : Role) : AnnotatedMembers role [] []
  | kept {role : Role} (key : String) {value other : Json} {rest others : List (String × Json)} :
      Annotated (role.member key) value other → AnnotatedMembers role rest others →
      AnnotatedMembers role ((key, value) :: rest) ((key, other) :: others)
  | added {key : String} (value : Json) {members others : List (String × Json)} :
      (∀ field : Field, key ≠ field.name) → AnnotatedMembers .node members others →
      AnnotatedMembers .node members ((key, value) :: others)

/-- Annotated items: the first of them, and the others. -/
inductive AnnotatedItems : List Role → Role → List Json → List Json → Prop
  | nil (first : List Role) (others : Role) : AnnotatedItems first others [] []
  | cons {first : List Role} {others : Role} {value other : Json} {rest following : List Json} :
      Annotated (first.headD others) value other →
      AnnotatedItems first.tail others rest following →
      AnnotatedItems first others (value :: rest) (other :: following)

end

/-- Members of a node are annotated by more of them in front. -/
theorem AnnotatedMembers.behind {notes members others : List (String × Json)}
    (unknown : ∀ note ∈ notes, ∀ field : Field, note.1 ≠ field.name)
    (annotated : AnnotatedMembers .node members others) :
    AnnotatedMembers .node members (notes ++ others) := by
  induction notes with
  | nil => exact annotated
  | cons note notes following =>
    exact .added note.2 (unknown note List.mem_cons_self)
      (following fun other held => unknown other (List.mem_cons_of_mem _ held))

/-! ## Skipped values -/

/-- A key that is not the name of a field is read as none. -/
theorem Field.ofName?_eq_none {key : String} (unknown : ∀ field : Field, key ≠ field.name) :
    Field.ofName? key = none := by
  rw [Field.ofName?, List.find?_eq_none]
  intro field _ same
  exact unknown field (beq_iff_eq.1 same).symm

mutual

/-- A document that is held as a value follows the grammar to its end. -/
theorem isWhole_toScan (document : Json) : document.toScan.isWhole = true := by
  cases document with
  | null | bool | number | text => rfl
  | array items => simp only [Json.toScan, Json.Scan.isWhole, allWhole_itemsToScan, Bool.and_self]
  | object members =>
    simp only [Json.toScan, Json.Scan.isWhole, allMembersWhole_membersToScan, Bool.and_self]
termination_by structural document

/-- Items that are held as values follow the grammar to their end. -/
theorem allWhole_itemsToScan (items : List Json) :
    Json.Scan.allWhole (Json.itemsToScan items) = true := by
  cases items with
  | nil => rfl
  | cons item rest =>
    simp only [Json.itemsToScan, Json.Scan.allWhole, isWhole_toScan, allWhole_itemsToScan,
      Bool.and_self]
termination_by structural items

/-- Members that are held as values follow the grammar to their end. -/
theorem allMembersWhole_membersToScan (members : List (String × Json)) :
    Json.Scan.allMembersWhole (Json.membersToScan members) = true := by
  cases members with
  | nil => rfl
  | cons member rest =>
    obtain ⟨key, value⟩ := member
    simp only [Json.membersToScan, Json.Scan.allMembersWhole, isWhole_toScan,
      allMembersWhole_membersToScan, Bool.and_self]
termination_by structural members

end

/-- A member under a key of no field is skipped. -/
theorem readFields_unknown {key : String} (unknown : ∀ field : Field, key ≠ field.name)
    (seen : List Field) (draft : Node) (value : Json) (rest : List (Option String × Json.Scan)) :
    readFields .value seen draft ((some key, value.toScan) :: rest) =
      readFields .value seen draft rest := by
  rw [readFields, Field.ofName?_eq_none unknown]
  simp only [isWhole_toScan, ↓reduceIte]

/-! ## Values of fields -/

/-- Two documents that are read alike, as what their place asks for. -/
def Role.ReadsSame (role : Role) (value other : Json) : Prop :=
  match role with
  | node => readNode .value other.toScan = readNode .value value.toScan
  | table => readTable .value other.toScan = readTable .value value.toScan
  | list => readList .value other.toScan = readList .value value.toScan
  | reference | Role.other => other = value

/-- A document is read like itself. -/
theorem Role.readsSame_self (role : Role) (document : Json) : role.ReadsSame document document := by
  cases role <;> rfl

/-- What a document says of a field. -/
abbrev Field.readJson (field : Field) (document : Json) (draft : Node) : Reading Node :=
  field.read .value document.toScan (fun mode => readNode mode document.toScan)
    (fun mode => readTable mode document.toScan) (fun mode => readList mode document.toScan) draft

/-- A field is read from an annotated document as it is where the document is read alike. -/
theorem Field.readJson_annotated (field : Field) {value other : Json}
    (annotated : Annotated field.role value other) (alike : field.role.ReadsSame value other)
    (draft : Node) : field.readJson other draft = field.readJson value draft := by
  cases field with
  | reference | kind | format | intOrString | preserveUnknown | kinds =>
    obtain rfl : other = value := alike
    rfl
  | properties =>
    exact congrArg (fun table => table.map fun value => { draft with properties := value }) alike
  | allOf => exact congrArg (fun list => list.map fun value => { draft with allOf := value }) alike
  | items =>
    have node : readNode .value other.toScan = readNode .value value.toScan := alike
    cases annotated with
    | same => rfl
    | node | slots =>
      exact congrArg (fun node => (node.map some).map fun value => { draft with items := value })
        node
  | additionalItems =>
    have node : readNode .value other.toScan = readNode .value value.toScan := alike
    cases annotated with
    | same => rfl
    | node | slots =>
      exact congrArg
        (fun node => (node.map some).map fun value => { draft with additionalItems := value }) node
  | additionalProperties =>
    have node : readNode .value other.toScan = readNode .value value.toScan := alike
    cases annotated with
    | same => rfl
    | node | slots =>
      simp only [Field.readJson, Field.read, readAdditional, node]
      rfl

/-! ## Members and items -/

/-- A member that is kept is read alike, and so are the members behind it. -/
theorem readFields_kept {key : String} {value other : Json}
    {rest others : List (Option String × Json.Scan)}
    (annotated : Annotated (Role.node.member key) value other)
    (alike : (Role.node.member key).ReadsSame value other)
    (behind : ∀ seen draft,
      readFields .value seen draft others = readFields .value seen draft rest)
    (seen : List Field) (draft : Node) :
    readFields .value seen draft ((some key, other.toScan) :: others) =
      readFields .value seen draft ((some key, value.toScan) :: rest) := by
  cases known : Field.ofName? key with
  | none =>
    have role : Role.node.member key = .other := by simp only [Role.member, known]; rfl
    rw [role] at alike
    obtain rfl : other = value := alike
    simp only [readFields, known, behind]
  | some field =>
    have role : Role.node.member key = field.role := by simp only [Role.member, known]; rfl
    rw [role] at annotated alike
    have read := field.readJson_annotated annotated alike draft
    simp only [Field.readJson] at read
    simp only [readFields, known, read, behind]

/-- An item that is kept is read alike as a field of a node, and so are the items behind it. -/
theorem readSlots_kept {fields : List Field} {value other : Json} {rest others : List Json.Scan}
    (annotated : Annotated ((fields.map Field.role).headD .other) value other)
    (alike : ((fields.map Field.role).headD .other).ReadsSame value other)
    (behind : ∀ position draft, readSlots .value position fields.tail draft others =
      readSlots .value position fields.tail draft rest)
    (position : Nat) (draft : Node) :
    readSlots .value position fields draft (other.toScan :: others) =
      readSlots .value position fields draft (value.toScan :: rest) := by
  cases fields with
  | nil => simp only [readSlots]
  | cons field fields =>
    have read := field.readJson_annotated annotated alike draft
    simp only [Field.readJson] at read
    simp only [List.tail_cons] at behind
    simp only [readSlots, read, behind]

/-- Annotated items are as many as there were. -/
theorem AnnotatedItems.length_eq {first : List Role} {role : Role} {items others : List Json}
    (annotated : AnnotatedItems first role items others) :
    (Json.itemsToScan others).length = (Json.itemsToScan items).length := by
  induction others generalizing first items with
  | nil => cases annotated; rfl
  | cons other others following =>
    cases annotated with
    | cons _ rest => simp only [Json.itemsToScan, List.length_cons, following rest]

mutual

/-- An annotated document is read as what its place asks for like the document itself. -/
theorem readsSame_of_annotated {role : Role} {document : Json} (other : Json)
    (annotated : Annotated role document other) : role.ReadsSame document other := by
  cases other with
  | null | bool | number | text => cases annotated; exact role.readsSame_self _
  | array others =>
    cases annotated with
    | same => exact role.readsSame_self _
    | slots items =>
      simp only [Role.ReadsSame, Json.toScan, readNode, Reading.enter, Mode.enter?,
        items.length_eq, readSlots_annotated others items]
    | list items =>
      simp only [Role.ReadsSame, Json.toScan, readList, Reading.enter, Mode.enter?,
        readItems_annotated others items]
  | object others =>
    cases annotated with
    | same => exact role.readsSame_self _
    | node members =>
      simp only [Role.ReadsSame, Json.toScan, readNode, Reading.enter, Mode.enter?,
        readFields_annotated others members]
    | table members =>
      simp only [Role.ReadsSame, Json.toScan, readTable, Reading.enter, Mode.enter?,
        readEntries_annotated others members]
termination_by structural other

/-- The fields of a node are read alike whatever members are added. -/
theorem readFields_annotated {members : List (String × Json)} (others : List (String × Json))
    (annotated : AnnotatedMembers .node members others) (seen : List Field) (draft : Node) :
    readFields .value seen draft (Json.membersToScan others) =
      readFields .value seen draft (Json.membersToScan members) := by
  cases others with
  | nil => cases annotated; rfl
  | cons member others =>
    obtain ⟨key, other⟩ := member
    cases annotated with
    | kept _ value rest =>
      exact readFields_kept value (readsSame_of_annotated other value)
        (readFields_annotated others rest) seen draft
    | added _ unknown rest =>
      simp only [Json.membersToScan]
      rw [readFields_unknown unknown, readFields_annotated others rest]
termination_by structural others

/-- The fields of a node that is written as an array are read alike. -/
theorem readSlots_annotated {fields : List Field} {items : List Json} (others : List Json)
    (annotated : AnnotatedItems (fields.map Field.role) .other items others) (position : Nat)
    (draft : Node) :
    readSlots .value position fields draft (Json.itemsToScan others) =
      readSlots .value position fields draft (Json.itemsToScan items) := by
  cases others with
  | nil => cases annotated; rfl
  | cons other others =>
    cases annotated with
    | cons value rest =>
      rw [← List.map_tail] at rest
      exact readSlots_kept value (readsSame_of_annotated other value)
        (fun position draft => readSlots_annotated others rest position draft) position draft
termination_by structural others

/-- Named nodes are read alike. -/
theorem readEntries_annotated {members : List (String × Json)} (others : List (String × Json))
    (annotated : AnnotatedMembers .table members others) :
    readEntries .value (Json.membersToScan others) =
      readEntries .value (Json.membersToScan members) := by
  cases others with
  | nil => cases annotated; rfl
  | cons member others =>
    obtain ⟨key, other⟩ := member
    cases annotated with
    | kept _ value rest =>
      have node : readNode .value other.toScan = readNode .value _ :=
        readsSame_of_annotated other value
      simp only [Json.membersToScan, readEntries, node, readEntries_annotated others rest]
termination_by structural others

/-- The nodes of a list are read alike. -/
theorem readItems_annotated {items : List Json} (others : List Json)
    (annotated : AnnotatedItems [] .node items others) (position : Nat) :
    readItems .value position (Json.itemsToScan others) =
      readItems .value position (Json.itemsToScan items) := by
  cases others with
  | nil => cases annotated; rfl
  | cons other others =>
    cases annotated with
    | cons value rest =>
      have node : readNode .value other.toScan = readNode .value _ :=
        readsSame_of_annotated other value
      simp only [Json.itemsToScan, readItems, node, readItems_annotated others rest]
termination_by structural others

end

/--
Members that are added to a document where it is read as a node, at any depth and under keys of no
field, change neither the node that is read nor the fault that is found, its place and its cause
included.
-/
theorem Node.ofJson_annotated {document annotated : Json}
    (added : Annotated .node document annotated) : Node.ofJson annotated = Node.ofJson document :=
  readsSame_of_annotated annotated added

/-- A shelf with these members in each of its nodes, and with something as a type in two of them. -/
def shelfDocument (notes : List (String × Json)) (kind : Json) : Json :=
  .object (notes ++ [("type", .text "object"),
    ("properties", .object [("title", .object (("type", kind) :: notes)),
      ("books", .object [("items", .object notes)])]),
    ("additionalProperties", .object (("type", kind) :: notes)),
    ("allOf", .array [.array [.null, .text "array", .null, .object notes]])])

/-- A shelf is annotated by members under keys of no field. -/
theorem shelfDocument_annotated {notes : List (String × Json)}
    (unknown : ∀ note ∈ notes, ∀ field : Field, note.1 ≠ field.name) (kind : Json) :
    Annotated .node (shelfDocument [] kind) (shelfDocument notes kind) := by
  have alone : AnnotatedMembers .node [] notes := by
    simpa only [List.append_nil] using (AnnotatedMembers.nil .node).behind unknown
  have typed : Annotated .node (.object [("type", kind)]) (.object (("type", kind) :: notes)) :=
    .node (.kept "type" (.same _ kind) alone)
  have books : Annotated .node (.object [("items", .object [])])
      (.object [("items", .object notes)]) :=
    .node (.kept "items" (.node alone) (.nil _))
  have properties : AnnotatedMembers .table
      [("title", .object [("type", kind)]), ("books", .object [("items", .object [])])]
      [("title", .object (("type", kind) :: notes)),
        ("books", .object [("items", .object notes)])] :=
    .kept "title" typed (.kept "books" books (.nil _))
  have slots : AnnotatedItems (Field.all.map Field.role) .other
      [.null, .text "array", .null, .object []] [.null, .text "array", .null, .object notes] :=
    .cons (.same _ _) (.cons (.same _ _) (.cons (.same _ _) (.cons (.node alone) (.nil _ _))))
  exact .node (.behind unknown (.kept "type" (.same _ _) (.kept "properties" (.table properties)
    (.kept "additionalProperties" typed
      (.kept "allOf" (.list (.cons (.slots slots) (.nil _ _))) (.nil _))))))

/-- Members that are no fields, one of them under the name of a property of a shelf. -/
def shelfNotes : List (String × Json) :=
  [("title", .object [("type", .bool true)]), ("Type", .null)]

/--
A shelf with members added at every depth is read as the same node; and where the types in it are
no texts, the first of them is found at fault in the same place.
-/
theorem shelf_read_alike :
    Annotated .node (shelfDocument [] (.text "string"))
      (shelfDocument shelfNotes (.text "string")) ∧
    Node.ofJson (shelfDocument shelfNotes (.text "string")) =
      .ok {
        kind := some "object"
        properties := [("title", .ofType "string"), ("books", { items := some {} })]
        additionalProperties := some (.schema (.ofType "string"))
        allOf := [{ kind := some "array", items := some {} }] } ∧
    Node.ofJson (shelfDocument shelfNotes (.bool true)) =
      .error (.unfit [.key "properties", .key "title", .key "type"]
        (.wrongKind "boolean `true`" "a string")) := by
  have unknown : ∀ note ∈ shelfNotes, ∀ field : Field, note.1 ≠ field.name := by
    intro note held field
    simp only [shelfNotes, List.mem_cons, List.not_mem_nil, or_false] at held
    obtain rfl | rfl := held <;> cases field <;> decide
  have annotated (kind : Json) := shelfDocument_annotated unknown kind
  refine ⟨annotated _, ?_, ?_⟩
  · rw [Node.ofJson_annotated (annotated (.text "string"))]
    rfl
  · rw [Node.ofJson_annotated (annotated (.bool true))]
    rfl

end TypedTree.Schema
