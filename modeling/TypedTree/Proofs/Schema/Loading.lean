import TypedTree.Proofs.Schema.Renaming
import TypedTree.Proofs.Schema.Rewriting

/-!
# Reading documents whose references are changed

Reading a document behind a change of its references gives the nodes behind the change, or fails
where reading the document before it fails. A fault need not be the same, since it may quote a text
that stands where none should. A reader of text that takes more nested containers reads whatever
one that takes fewer reads, and the same proof shows it: there, readings are compared only where the
first of them succeeds.
-/

namespace TypedTree.Schema

/-! ## Readings that are alike -/

/--
Two readings of which the second has the result of the first one, changed. Where the first one
fails, so does the second, or, if the comparison is not strict, it may do anything.
-/
inductive ReadAlike (strict : Prop) {ε δ α β : Type} (change : α → β) :
    Except ε α → Except δ β → Prop
  | ok (value : α) : ReadAlike strict change (.ok value) (.ok (change value))
  | error (first : ε) (second : δ) : ReadAlike strict change (.error first) (.error second)
  | failed (lenient : ¬ strict) (first : ε) (other : Except δ β) :
      ReadAlike strict change (.error first) other

/-- A mode that allows as much as another one, or, if the comparison is not strict, less. -/
inductive Mode.Within (strict : Prop) : Mode → Mode → Prop
  | text {depth larger : Nat} : depth ≤ larger → (strict → depth = larger) →
      Within strict (.text depth) (.text larger)
  | value : Within strict .value .value

namespace ReadAlike

variable {strict : Prop} {α β γ δ : Type} {change : α → β} {reading : Reading α}
  {other : Reading β}

/-- A reading is like itself. -/
theorem refl (reading : Reading α) : ReadAlike strict id reading reading := by
  cases reading with
  | error fault => exact .error _ _
  | ok value => exact .ok value

/-- Readings that are alike are so as those of members. -/
theorem within (alike : ReadAlike strict change reading other) (step : Place) :
    ReadAlike strict change (reading.within step) (other.within step) := by
  cases alike with
  | ok value => exact .ok value
  | error first second => exact .error _ _
  | failed lenient => exact .failed lenient _ _

/-- What is made of readings that are alike is alike. -/
theorem map {made : γ → δ} {left : α → γ} {right : β → δ}
    (alike : ReadAlike strict change reading other)
    (step : ∀ value, right (change value) = made (left value)) :
    ReadAlike strict made (reading.map left) (other.map right) := by
  cases alike with
  | ok value =>
    change ReadAlike strict made _ (.ok (right (change value)))
    rw [step]
    exact .ok _
  | error first second => exact .error _ _
  | failed lenient => exact .failed lenient _ _

/-- Results of containers are alike, closed or not. -/
theorem closing (closed : Bool) (value : α) :
    ReadAlike strict change (Reading.closing closed value)
      (Reading.closing closed (change value)) := by
  cases closed with
  | false => exact .error _ _
  | true => exact .ok value

/-- What is read inside of containers is alike where it is in the modes inside. -/
theorem enter {mode larger : Mode} (more : mode.Within strict larger)
    {inside : Mode → Reading α} {insideOther : Mode → Reading β}
    (alike : ∀ inner innerLarger, inner.Within strict innerLarger →
      ReadAlike strict change (inside inner) (insideOther innerLarger)) :
    ReadAlike strict change (Reading.enter mode inside) (Reading.enter larger insideOther) := by
  cases more with
  | value => exact alike _ _ .value
  | @text depth larger more equal =>
    cases depth with
    | zero =>
      cases larger with
      | zero => exact .error _ _
      | succ larger => exact .failed (fun strict => nomatch equal strict) _ _
    | succ depth =>
      obtain ⟨larger, rfl⟩ := Nat.exists_eq_succ_of_ne_zero (Nat.ne_zero_of_lt more)
      exact alike _ _ (.text (Nat.le_of_succ_le_succ more) fun strict =>
        Nat.succ.inj (equal strict))

/-- A surplus of items is a fault, whichever it is. -/
theorem surplus (mode larger : Mode) (count countOther : Nat) :
    ReadAlike strict change (Reading.surplus mode count) (Reading.surplus larger countOther) := by
  cases mode <;> cases larger <;> exact .error _ _

/-- Readings that are strictly alike have alike results, or none. -/
theorem toOption_eq {ε δ : Type} {reading : Except ε α} {other : Except δ β}
    (alike : ReadAlike True change reading other) :
    other.toOption = reading.toOption.map change := by
  cases alike with
  | ok | error => rfl
  | failed lenient => exact absurd trivial lenient

/-- A result of the first of two readings that are alike is one of the second. -/
theorem toOption_eq_some {ε δ : Type} {reading : Except ε α} {other : Except δ β} {value : α}
    (alike : ReadAlike strict change reading other) (read : reading.toOption = some value) :
    other.toOption = some (change value) := by
  cases alike with
  | ok own =>
    cases read
    rfl
  | error | failed => cases read

end ReadAlike

section Values

variable {strict : Prop} {α β : Type} (change : String → String) (role : Role) (scan : Json.Scan)

/-- What may be absent is so behind a change, too. -/
theorem readOptional_renamed {read : Unit → Reading α} {readOther : Unit → Reading β}
    {made : α → β} (alike : ReadAlike strict made (read ()) (readOther ())) :
    ReadAlike strict (Option.map made) (readOptional scan read)
      (readOptional (scan.renamed change role) readOther) := by
  cases scan with
  | null => exact .ok none
  | _ => exact alike.map fun _ => rfl

/-- A text is read as it is where it is no reference. -/
theorem readText_renamed (plain : role ≠ .reference) :
    ReadAlike strict id (readText scan) (readText (scan.renamed change role)) := by
  cases scan with
  | text value =>
    rw [Json.Scan.renamed, if_neg plain]
    exact .refl _
  | _ => exact .error _ _

/-- A reference is read with the change. -/
theorem readText_reference :
    ReadAlike strict change (readText scan) (readText (scan.renamed change .reference)) := by
  cases scan with
  | text value =>
    cases value with
    | none => exact .error _ _
    | some text => exact .ok text
  | _ => exact .error _ _

/-- A truth value is read as it is. -/
theorem readFlag_renamed :
    ReadAlike strict id (readFlag scan) (readFlag (scan.renamed change role)) := by
  cases scan with
  | bool value => exact .ok value
  | _ => exact .error _ _

end Values

/-! ## Resource kinds -/

section Tags

variable {strict : Prop} {mode larger : Mode} (change : String → String)

/-- A text of a resource kind is read as it is. -/
theorem TagDraft.set_renamed (name : String) (old : Option String) (scan : Json.Scan)
    (update : String → TagDraft) :
    ReadAlike strict id (TagDraft.set name old scan update)
      (TagDraft.set name old (scan.renamed change .other) update) := by
  unfold TagDraft.set
  split
  · exact .error _ _
  · refine ReadAlike.within ?_ _
    exact (readText_renamed change .other scan (by decide)).map fun _ => rfl

/-- What a member of a resource kind makes of a draft. -/
def readTagMember (draft : TagDraft) (name : String) (scan : Json.Scan) : Reading TagDraft :=
  if name = "group" then TagDraft.set name draft.group scan fun group => { draft with group }
  else if name = "version" then
    TagDraft.set name draft.version scan fun version => { draft with version }
  else if name = "kind" then TagDraft.set name draft.kind scan fun kind => { draft with kind }
  else if scan.isWhole then .ok draft
  else .error .malformed

/-- The members of a resource kind are read one after the other. -/
theorem readTagMembers_cons (draft : TagDraft) (name : String) (scan : Json.Scan)
    (rest : List (Option String × Json.Scan)) :
    readTagMembers draft ((some name, scan) :: rest) =
      match readTagMember draft name scan with
      | .ok draft => readTagMembers draft rest
      | .error fault => .error fault := by
  rw [readTagMembers]
  rfl

/-- What a member of a resource kind makes of a draft does not depend on references. -/
theorem readTagMember_renamed (draft : TagDraft) (name : String) (scan : Json.Scan) :
    ReadAlike strict id (readTagMember draft name scan)
      (readTagMember draft name (scan.renamed change (Role.other.member name))) := by
  have plain (known : name ≠ Field.reference.name) :
      scan.renamed change (Role.other.member name) = scan.renamed change .other := by
    rw [Role.member, if_neg known]
    all_goals simp
  unfold readTagMember
  by_cases group : name = "group"
  · rw [if_pos group, if_pos group, plain (by simp [group, Field.name])]
    exact TagDraft.set_renamed change _ _ scan _
  rw [if_neg group, if_neg group]
  by_cases version : name = "version"
  · rw [if_pos version, if_pos version, plain (by simp [version, Field.name])]
    exact TagDraft.set_renamed change _ _ scan _
  rw [if_neg version, if_neg version]
  by_cases kind : name = "kind"
  · rw [if_pos kind, if_pos kind, plain (by simp [kind, Field.name])]
    exact TagDraft.set_renamed change _ _ scan _
  rw [if_neg kind, if_neg kind, Json.Scan.isWhole_renamed]
  exact .refl _

/-- The members of a resource kind are read as they are. -/
theorem readTagMembers_renamed (draft : TagDraft) (members : List (Option String × Json.Scan)) :
    ReadAlike strict id (readTagMembers draft members)
      (readTagMembers draft (Json.Scan.membersRenamed change .other members)) := by
  induction members generalizing draft with
  | nil => exact .ok draft
  | cons member rest ih =>
    obtain ⟨key, scan⟩ := member
    cases key with
    | none => exact .error _ _
    | some name =>
      have first : ReadAlike strict id (readTagMember draft name scan) _ :=
        readTagMember_renamed change draft name scan
      rw [readTagMembers_cons, Json.Scan.membersRenamed, readTagMembers_cons, Option.map_some,
        Option.getD_some]
      generalize readTagMember draft name scan = found,
        readTagMember draft name (scan.renamed change (Role.other.member name)) = other at first ⊢
      cases first with
      | ok draft => exact ih draft
      | error => exact .error _ _
      | failed lenient => exact .failed lenient _ _

/-- The leading texts of an array are read as they are. -/
theorem readTexts_renamed (position count : Nat) (items : List Json.Scan) :
    ReadAlike strict id (readTexts position count items)
      (readTexts position count (Json.Scan.itemsRenamed change [] .other items)) := by
  induction items generalizing position count with
  | nil => cases count <;> exact .ok []
  | cons item rest ih =>
    cases count with
    | zero => exact .ok []
    | succ count =>
      have first : ReadAlike strict id (Reading.within (.index position) (readText item)) _ :=
        (readText_renamed change .other item (by decide)).within _
      simp only [Json.Scan.itemsRenamed, List.headD_nil, List.tail_nil, readTexts]
      generalize Reading.within (.index position) (readText item) = found,
        Reading.within (.index position) (readText (item.renamed change .other)) = other at first ⊢
      cases first with
      | ok text => exact (ih (position + 1) count).map fun _ => rfl
      | error => exact .error _ _
      | failed lenient => exact .failed lenient _ _

/-- A resource kind written as an array is read as it is. -/
theorem readTagItems_renamed (mode larger : Mode) (items : List Json.Scan) (closed : Bool) :
    ReadAlike strict id (readTagItems mode items closed)
      (readTagItems larger (Json.Scan.itemsRenamed change [] .other items) closed) := by
  have texts : ReadAlike strict id (readTexts 0 3 items) _ := readTexts_renamed change 0 3 items
  unfold readTagItems
  rw [Json.Scan.length_itemsRenamed]
  generalize readTexts 0 3 items = found,
    readTexts 0 3 (Json.Scan.itemsRenamed change [] .other items) = other at texts ⊢
  cases texts with
  | ok texts =>
    dsimp only [id]
    split
    · cases ‹_›
    · split
      · exact .surplus mode larger _ _
      · exact .closing closed _
    · split <;> exact .error _ _
  | error => exact .error _ _
  | failed lenient => exact .failed lenient _ _

/-- A resource kind is read as it is. -/
theorem readTag_renamed (more : mode.Within strict larger) (scan : Json.Scan) :
    ReadAlike strict id (readTag mode scan) (readTag larger (scan.renamed change .other)) := by
  cases scan with
  | null | bool | number | text | broken => exact .error _ _
  | array items closed =>
    exact .enter more fun inner innerLarger _ =>
      readTagItems_renamed change inner innerLarger items closed
  | object members closed =>
    refine .enter more fun _ _ _ => ?_
    have read : ReadAlike strict id (readTagMembers {} members) _ :=
      readTagMembers_renamed change {} members
    generalize readTagMembers {} members = found,
      readTagMembers {} (Json.Scan.membersRenamed change .other members) = other at read ⊢
    cases read with
    | ok draft => exact .refl _
    | error => exact .error _ _
    | failed lenient => exact .failed lenient _ _

/-- The resource kinds of an array are read as they are. -/
theorem readTagsFrom_renamed (more : mode.Within strict larger) (position : Nat)
    (items : List Json.Scan) :
    ReadAlike strict id (readTagsFrom mode position items)
      (readTagsFrom larger position (Json.Scan.itemsRenamed change [] .other items)) := by
  induction items generalizing position with
  | nil => exact .ok []
  | cons item rest ih =>
    have first := (readTag_renamed change more item).within (.index position)
    simp only [Json.Scan.itemsRenamed, List.headD_nil, List.tail_nil, readTagsFrom]
    generalize Reading.within (.index position) (readTag mode item) = found,
      Reading.within (.index position) (readTag larger (item.renamed change .other)) = other
      at first ⊢
    cases first with
    | ok tag => exact (ih (position + 1)).map fun _ => rfl
    | error => exact .error _ _
    | failed lenient => exact .failed lenient _ _

/-- The resource kinds of a definition are read as they are. -/
theorem readTags_renamed (more : mode.Within strict larger) (scan : Json.Scan) :
    ReadAlike strict id (readTags mode scan) (readTags larger (scan.renamed change .other)) := by
  cases scan with
  | null | bool | number | text | object | broken => exact .error _ _
  | array items closed =>
    refine .enter more fun inner innerLarger more => ?_
    have tags := readTagsFrom_renamed change more 0 items
    simp only [Role.items]
    generalize readTagsFrom inner 0 items = found,
      readTagsFrom innerLarger 0 (Json.Scan.itemsRenamed change [] .other items) = other at tags ⊢
    cases tags with
    | ok tags => exact .closing closed tags
    | error => exact .error _ _
    | failed lenient => exact .failed lenient _ _

end Tags

/-! ## Nodes -/

section Nodes

variable {strict : Prop} {mode larger : Mode} (change : String → String)

/-- A mode that allows as much holds what the other one holds, behind a change, too. -/
theorem Mode.Within.holds_renamed (more : mode.Within strict larger) (role : Role)
    (scan : Json.Scan) (held : mode.holds scan) : larger.holds (scan.renamed change role) := by
  cases more with
  | value => rfl
  | text more =>
    rw [Mode.holds, Json.Scan.isSome_toJson?_renamed]
    exact Json.Scan.isSome_toJson?_mono more scan held

/-- In strict comparisons the modes are the same. -/
theorem Mode.Within.eq (more : mode.Within strict larger) (exact : strict) : mode = larger := by
  cases more with
  | value => rfl
  | text _ equal => rw [equal exact]

/-- In strict comparisons a change keeps what cannot be held. -/
theorem Mode.Within.not_holds_renamed (more : mode.Within strict larger) (exact : strict)
    (role : Role) (scan : Json.Scan) (held : ¬ mode.holds scan) :
    ¬ larger.holds (scan.renamed change role) := by
  obtain rfl := more.eq exact
  cases mode with
  | value => exact held
  | text depth =>
    rw [Mode.holds, Json.Scan.isSome_toJson?_renamed]
    exact held

/-- What is taken in whole is read as a node with the change, or not taken. -/
theorem ReadAlike.taken (more : mode.Within strict larger) (scan : Json.Scan)
    (node : ReadAlike strict (Node.renamed change) (readNode .value scan)
      (readNode .value (scan.renamed change .node))) :
    ReadAlike strict (Node.additionalRenamed change)
      (if mode.holds scan then
        match readNode .value scan with
        | .ok node => .ok (some (.schema node))
        | .error _ => .error (Fault.unfit [] .noVariant)
      else .error .malformed)
      (if larger.holds (scan.renamed change .node) then
        match readNode .value (scan.renamed change .node) with
        | .ok node => .ok (some (.schema node))
        | .error _ => .error (Fault.unfit [] .noVariant)
      else .error .malformed) := by
  by_cases held : mode.holds scan
  · rw [if_pos held, if_pos (more.holds_renamed change .node scan held)]
    generalize readNode .value scan = found,
      readNode .value (scan.renamed change .node) = other at node ⊢
    cases node with
    | ok node => exact .ok (some (Additional.schema node))
    | error => exact .error _ _
    | failed lenient => exact .failed lenient _ _
  · rw [if_neg held]
    by_cases exactly : strict
    · rw [if_neg (more.not_holds_renamed change exactly .node scan held)]
      exact .error _ _
    · exact .failed exactly _ _

/-- What may stand beyond the properties is read with the change. -/
theorem readAdditional_renamed (more : mode.Within strict larger) (scan : Json.Scan)
    (node : ReadAlike strict (Node.renamed change) (readNode .value scan)
      (readNode .value (scan.renamed change .node))) :
    ReadAlike strict (Node.additionalRenamed change)
      (readAdditional mode scan fun mode => readNode mode scan)
      (readAdditional larger (scan.renamed change .node) fun mode =>
        readNode mode (scan.renamed change .node)) := by
  have taken := ReadAlike.taken change more scan node
  cases scan with
  | null => exact .ok none
  | bool permitted => exact .ok (some (Additional.allowed permitted))
  | number | text | array | object | broken => exact taken

/-- The value of a field is read with the change. -/
theorem Field.read_renamed (field : Field) (more : mode.Within strict larger) (scan : Json.Scan)
    (draft : Node)
    (node : ∀ {mode larger : Mode}, mode.Within strict larger →
      ReadAlike strict (Node.renamed change) (readNode mode scan)
        (readNode larger (scan.renamed change .node)))
    (table : ReadAlike strict (Node.tableRenamed change) (readTable mode scan)
      (readTable larger (scan.renamed change .table)))
    (list : ReadAlike strict (Node.listRenamed change) (readList mode scan)
      (readList larger (scan.renamed change .list))) :
    ReadAlike strict (Node.renamed change)
      (field.read mode scan (fun mode => readNode mode scan) (fun mode => readTable mode scan)
        (fun mode => readList mode scan) draft)
      (field.read larger (scan.renamed change field.role)
        (fun mode => readNode mode (scan.renamed change field.role))
        (fun mode => readTable mode (scan.renamed change field.role))
        (fun mode => readList mode (scan.renamed change field.role)) (draft.renamed change)) := by
  cases draft
  cases field with
  | reference =>
    exact (readOptional_renamed change .reference scan (readText_reference change scan)).map
      fun value => rfl
  | kind | format =>
    exact (readOptional_renamed change .other scan
      (readText_renamed change .other scan (by decide))).map fun value => by cases value <;> rfl
  | items | additionalItems =>
    exact (readOptional_renamed change .node scan (node more)).map
      fun value => by cases value <;> rfl
  | properties => exact table.map fun value => rfl
  | additionalProperties =>
    exact (readAdditional_renamed change more scan (node .value)).map fun value => rfl
  | allOf => exact list.map fun value => rfl
  | intOrString | preserveUnknown =>
    exact (readFlag_renamed change .other scan).map fun value => rfl
  | kinds => exact (readTags_renamed change more scan).map fun value => rfl

mutual

/-- A node is read with the change. -/
theorem readNode_renamed {mode larger : Mode} (more : mode.Within strict larger)
    (scan : Json.Scan) :
    ReadAlike strict (Node.renamed change) (readNode mode scan)
      (readNode larger (scan.renamed change .node)) := by
  cases scan with
  | null | bool | number | text | broken => exact .error _ _
  | array items closed =>
    rw [Json.Scan.renamed, readNode, readNode]
    refine .enter more fun inner innerLarger more => ?_
    have slots := readSlots_renamed more 0 Field.all {} items
    rw [Json.Scan.length_itemsRenamed]
    simp only [Role.items]
    rw [Node.renamed_empty] at slots
    generalize readSlots inner 0 Field.all {} items = found,
      readSlots innerLarger 0 Field.all {}
        (Json.Scan.itemsRenamed change (Field.all.map Field.role) .other items) = other at slots ⊢
    cases slots with
    | ok node =>
      dsimp only
      split
      · exact .surplus inner innerLarger _ _
      · exact .closing closed node
    | error => exact .error _ _
    | failed lenient => exact .failed lenient _ _
  | object members closed =>
    rw [Json.Scan.renamed, readNode, readNode]
    refine .enter more fun inner innerLarger more => ?_
    have fields := readFields_renamed more [] {} members
    rw [Node.renamed_empty] at fields
    generalize readFields inner [] {} members = found,
      readFields innerLarger [] {} (Json.Scan.membersRenamed change .node members) = other
      at fields ⊢
    cases fields with
    | ok node => exact .closing closed node
    | error => exact .error _ _
    | failed lenient => exact .failed lenient _ _
termination_by structural scan

/-- A table of named nodes is read with the change. -/
theorem readTable_renamed {mode larger : Mode} (more : mode.Within strict larger)
    (scan : Json.Scan) :
    ReadAlike strict (Node.tableRenamed change) (readTable mode scan)
      (readTable larger (scan.renamed change .table)) := by
  cases scan with
  | null | bool | number | text | array | broken => exact .error _ _
  | object members closed =>
    rw [Json.Scan.renamed, readTable, readTable]
    refine .enter more fun inner innerLarger more => ?_
    have entries := readEntries_renamed more members
    generalize readEntries inner members = found,
      readEntries innerLarger (Json.Scan.membersRenamed change .table members) = other at entries ⊢
    cases entries with
    | ok entries =>
      dsimp only
      rw [Node.tableRenamed_eq, ← Entries.ofList_map, ← Node.tableRenamed_eq]
      exact .closing closed _
    | error => exact .error _ _
    | failed lenient => exact .failed lenient _ _
termination_by structural scan

/-- A list of nodes is read with the change. -/
theorem readList_renamed {mode larger : Mode} (more : mode.Within strict larger)
    (scan : Json.Scan) :
    ReadAlike strict (Node.listRenamed change) (readList mode scan)
      (readList larger (scan.renamed change .list)) := by
  cases scan with
  | null | bool | number | text | object | broken => exact .error _ _
  | array items closed =>
    rw [Json.Scan.renamed, readList, readList]
    refine .enter more fun inner innerLarger more => ?_
    have nodes := readItems_renamed more 0 items
    simp only [Role.items]
    generalize readItems inner 0 items = found,
      readItems innerLarger 0 (Json.Scan.itemsRenamed change [] .node items) = other at nodes ⊢
    cases nodes with
    | ok nodes => exact .closing closed nodes
    | error => exact .error _ _
    | failed lenient => exact .failed lenient _ _
termination_by structural scan

/-- The members of a node are read with the change. -/
theorem readFields_renamed {mode larger : Mode} (more : mode.Within strict larger)
    (seen : List Field) (draft : Node) (members : List (Option String × Json.Scan)) :
    ReadAlike strict (Node.renamed change) (readFields mode seen draft members)
      (readFields larger seen (draft.renamed change)
        (Json.Scan.membersRenamed change .node members)) := by
  cases members with
  | nil => exact .ok draft
  | cons member rest =>
    obtain ⟨key, scan⟩ := member
    cases key with
    | none => exact .error _ _
    | some name =>
      rw [Json.Scan.membersRenamed, readFields, readFields, Option.map_some, Option.getD_some]
      cases known : Field.ofName? name with
      | none =>
        simp only [Json.Scan.isWhole_renamed]
        split
        · exact readFields_renamed more seen draft rest
        · exact .error _ _
      | some field =>
        have role : Role.node.member name = field.role := by simp [Role.member, known]
        have value := (field.read_renamed change more scan draft
          (fun more => readNode_renamed more scan) (readTable_renamed more scan)
          (readList_renamed more scan)).within (.key name)
        simp only [role]
        split
        · exact .error _ _
        · generalize Reading.within (.key name) (field.read mode scan _ _ _ draft) = found,
            Reading.within (.key name) (field.read larger (scan.renamed change field.role) _ _ _
              (draft.renamed change)) = other at value ⊢
          cases value with
          | ok node => exact readFields_renamed more (field :: seen) node rest
          | error => exact .error _ _
          | failed lenient => exact .failed lenient _ _
termination_by structural members

/-- The items of an array are read with the change as the fields of a node. -/
theorem readSlots_renamed {mode larger : Mode} (more : mode.Within strict larger)
    (position : Nat) (fields : List Field) (draft : Node) (items : List Json.Scan) :
    ReadAlike strict (Node.renamed change) (readSlots mode position fields draft items)
      (readSlots larger position fields (draft.renamed change)
        (Json.Scan.itemsRenamed change (fields.map Field.role) .other items)) := by
  cases items with
  | nil => exact .ok draft
  | cons scan rest =>
    cases fields with
    | nil => exact .ok draft
    | cons field fields =>
      have value := (field.read_renamed change more scan draft
        (fun more => readNode_renamed more scan) (readTable_renamed more scan)
        (readList_renamed more scan)).within (.index position)
      simp only [Json.Scan.itemsRenamed, List.map_cons, List.headD_cons, List.tail_cons, readSlots]
      generalize Reading.within (.index position) (field.read mode scan _ _ _ draft) = found,
        Reading.within (.index position) (field.read larger (scan.renamed change field.role) _ _ _
          (draft.renamed change)) = other at value ⊢
      cases value with
      | ok node => exact readSlots_renamed more (position + 1) fields node rest
      | error => exact .error _ _
      | failed lenient => exact .failed lenient _ _
termination_by structural items

/-- The members of a table are read with the change. -/
theorem readEntries_renamed {mode larger : Mode} (more : mode.Within strict larger)
    (members : List (Option String × Json.Scan)) :
    ReadAlike strict (Node.tableRenamed change) (readEntries mode members)
      (readEntries larger (Json.Scan.membersRenamed change .table members)) := by
  cases members with
  | nil => exact .ok []
  | cons member rest =>
    obtain ⟨key, scan⟩ := member
    cases key with
    | none => exact .error _ _
    | some name =>
      have node := (readNode_renamed more scan).within (.key name)
      rw [Json.Scan.membersRenamed, readEntries, readEntries, Option.map_some, Option.getD_some,
        Role.member]
      generalize Reading.within (.key name) (readNode mode scan) = found,
        Reading.within (.key name) (readNode larger (scan.renamed change .node)) = other at node ⊢
      cases node with
      | ok node => exact (readEntries_renamed more rest).map fun entries => rfl
      | error => exact .error _ _
      | failed lenient => exact .failed lenient _ _
termination_by structural members

/-- The nodes of an array are read with the change. -/
theorem readItems_renamed {mode larger : Mode} (more : mode.Within strict larger)
    (position : Nat) (items : List Json.Scan) :
    ReadAlike strict (Node.listRenamed change) (readItems mode position items)
      (readItems larger position (Json.Scan.itemsRenamed change [] .node items)) := by
  cases items with
  | nil => exact .ok []
  | cons scan rest =>
    have node := (readNode_renamed more scan).within (.index position)
    simp only [Json.Scan.itemsRenamed, List.headD_nil, List.tail_nil, readItems]
    generalize Reading.within (.index position) (readNode mode scan) = found,
      Reading.within (.index position) (readNode larger (scan.renamed change .node)) = other
      at node ⊢
    cases node with
    | ok node => exact (readItems_renamed more (position + 1) rest).map fun nodes => rfl
    | error => exact .error _ _
    | failed lenient => exact .failed lenient _ _
termination_by structural items

end

end Nodes

end TypedTree.Schema
