import TypedTree.Schema.Fault
import TypedTree.Schema.Node
import TypedTree.Json.Reader

/-!
# Reading schema nodes

A structure is read from an object, whose unknown keys are skipped and whose known keys stand at
most once, or from an array of its fields in order. Reading goes from left to right and ends at
the first fault; whether the text goes on as JSON is asked only where reading gets to. A document
that is held as a value already is read by the same rules, with three differences: it has no depth
limit, its keys are distinct, and a surplus of array items has a message of its own.
-/

namespace TypedTree.Schema

/-- Where a document is read from. -/
inductive Mode where
  /-- From text, in which so many more containers may be nested. -/
  | text (depth : Nat)
  /-- From a value. -/
  | value
  deriving Repr

namespace Mode

/-- The mode inside one more container, if it may be entered. -/
def enter? : Mode → Option Mode
  | text 0 => none
  | text (depth + 1) => some (text depth)
  | value => some value

/-- Whether a scan can be held as a value. -/
def holds (mode : Mode) (scan : Json.Scan) : Bool :=
  match mode with
  | text depth => (scan.toJson? depth).isSome
  | value => true

end Mode

/-- What reading a value gives. -/
abbrev Reading := Except Fault

/-- A result of a value, with a fault of it addressed through the step to it. -/
def Reading.within {α : Type} (step : Place) (result : Reading α) : Reading α :=
  result.mapError (Fault.under step)

/-- A result that stands only if its container was closed. -/
def Reading.closing {α : Type} (closed : Bool) (result : α) : Reading α :=
  if closed then .ok result else .error .malformed

/-- The members of an object or the items of an array, one container deeper. -/
def Reading.enter {α : Type} (mode : Mode) (inside : Mode → Reading α) : Reading α :=
  match mode.enter? with
  | some mode => inside mode
  | none => .error .malformed

/-- The end of an array that has more items than the structure has fields. -/
def Reading.surplus {α : Type} (mode : Mode) (count : Nat) : Reading α :=
  match mode with
  | .text _ => .error .malformed
  | .value => .error (.unfit [] (.tooManyItems count))

/-- A text. -/
def readText : Json.Scan → Reading String
  | .text (some value) => .ok value
  | scan => .error (.wanting "a string" scan)

/-- A truth value. -/
def readFlag : Json.Scan → Reading Bool
  | .bool value => .ok value
  | scan => .error (.wanting "a boolean" scan)

/-- Something that may be absent; null is absence. -/
def readOptional {α : Type} (scan : Json.Scan) (read : Unit → Reading α) : Reading (Option α) :=
  match scan with
  | .null => .ok none
  | _ => (read ()).map some

/-! ## Resource kinds -/

/-- The fields of a resource kind that have been read. -/
structure TagDraft where
  group : Option String := none
  version : Option String := none
  kind : Option String := none

/-- Sets one text of a draft; a text that is set already is a repetition. -/
def TagDraft.set (name : String) (old : Option String) (scan : Json.Scan)
    (update : String → TagDraft) : Reading TagDraft :=
  if old.isSome then .error (.unfit [] (.duplicateField name))
  else Reading.within (.key name) ((readText scan).map update)

/-- The members of a resource kind. -/
def readTagMembers (draft : TagDraft) : List (Option String × Json.Scan) → Reading TagDraft
  | [] => .ok draft
  | (none, _) :: _ => .error .malformed
  | (some name, scan) :: rest =>
    let next :=
      if name = "group" then
        TagDraft.set name draft.group scan fun group => { draft with group }
      else if name = "version" then
        TagDraft.set name draft.version scan fun version => { draft with version }
      else if name = "kind" then TagDraft.set name draft.kind scan fun kind => { draft with kind }
      else if scan.isWhole then .ok draft
      else .error .malformed
    match next with
    | .ok draft => readTagMembers draft rest
    | .error fault => .error fault

/-- A draft as a resource kind; only the group may be missing, and is empty then. -/
def TagDraft.finish (draft : TagDraft) : Reading GroupVersionKind :=
  match draft.version, draft.kind with
  | some version, some kind => .ok ⟨draft.group.getD "", version, kind⟩
  | none, _ => .error (.unfit [] (.missingField "version"))
  | _, none => .error (.unfit [] (.missingField "kind"))

/-- The leading texts of an array, at most so many. -/
def readTexts (position : Nat) : Nat → List Json.Scan → Reading (List String)
  | 0, _ => .ok []
  | _, [] => .ok []
  | count + 1, item :: rest =>
    match Reading.within (.index position) (readText item) with
    | .error fault => .error fault
    | .ok value => (readTexts (position + 1) count rest).map (value :: ·)

/-- A resource kind written as an array; a missing group leaves the version missing, too. -/
def readTagItems (mode : Mode) (items : List Json.Scan) (closed : Bool) :
    Reading GroupVersionKind :=
  match readTexts 0 3 items with
  | .error fault => .error fault
  | .ok [group, version, kind] =>
    if 3 < items.length then .surplus mode items.length
    else .closing closed ⟨group, version, kind⟩
  | .ok texts =>
    if closed then .error (.unfit [] (.tooFewItems (max 1 texts.length))) else .error .malformed

/-- A resource kind. -/
def readTag (mode : Mode) (scan : Json.Scan) : Reading GroupVersionKind :=
  match scan with
  | .object members closed =>
    .enter mode fun _ =>
      match readTagMembers {} members with
      | .error fault => .error fault
      | .ok draft => if closed then draft.finish else .error .malformed
  | .array items closed => .enter mode fun mode => readTagItems mode items closed
  | scan => .error (.wanting "struct GroupVersionKind" scan)

/-- Resource kinds from a position of an array on. -/
def readTagsFrom (mode : Mode) (position : Nat) : List Json.Scan → Reading (List GroupVersionKind)
  | [] => .ok []
  | item :: rest =>
    match Reading.within (.index position) (readTag mode item) with
    | .error fault => .error fault
    | .ok tag => (readTagsFrom mode (position + 1) rest).map (tag :: ·)

/-- The resource kinds of a definition. -/
def readTags (mode : Mode) (scan : Json.Scan) : Reading (List GroupVersionKind) :=
  match scan with
  | .array items closed =>
    .enter mode fun mode =>
      match readTagsFrom mode 0 items with
      | .error fault => .error fault
      | .ok tags => .closing closed tags
  | scan => .error (.wanting "a sequence" scan)

/-! ## Nodes -/

/--
What may stand beyond the properties: a truth value or a node. The value is taken in whole before it
is looked at, and then anything wrong in it is one and the same fault.
-/
def readAdditional (mode : Mode) (scan : Json.Scan) (asNode : Mode → Reading Node) :
    Reading (Option (Additional Node)) :=
  match scan with
  | .null => .ok none
  | .bool permitted => .ok (some (.allowed permitted))
  | scan =>
    if mode.holds scan then
      match asNode .value with
      | .ok node => .ok (some (.schema node))
      | .error _ => .error (.unfit [] .noVariant)
    else .error .malformed

/--
Reads the value of a field into a node. What the value is as a node, as a table of named nodes and
as a list of nodes is asked for only where the field holds such a thing.
-/
def Field.read (field : Field) (mode : Mode) (scan : Json.Scan) (asNode : Mode → Reading Node)
    (asTable : Mode → Reading (List (String × Node))) (asList : Mode → Reading (List Node))
    (node : Node) : Reading Node :=
  match field with
  | .reference =>
    (readOptional scan fun _ => readText scan).map fun value => { node with reference := value }
  | .kind => (readOptional scan fun _ => readText scan).map fun value => { node with kind := value }
  | .format =>
    (readOptional scan fun _ => readText scan).map fun value => { node with format := value }
  | .items => (readOptional scan fun _ => asNode mode).map fun value => { node with items := value }
  | .additionalItems =>
    (readOptional scan fun _ => asNode mode).map fun value => { node with additionalItems := value }
  | .properties => (asTable mode).map fun value => { node with properties := value }
  | .additionalProperties =>
    (readAdditional mode scan asNode).map fun value => { node with additionalProperties := value }
  | .allOf => (asList mode).map fun value => { node with allOf := value }
  | .intOrString => (readFlag scan).map fun value => { node with intOrString := value }
  | .preserveUnknown => (readFlag scan).map fun value => { node with preserveUnknown := value }
  | .kinds => (readTags mode scan).map fun value => { node with kinds := value }

mutual

/-- A node. -/
def readNode (mode : Mode) : Json.Scan → Reading Node
  | .object members closed =>
    .enter mode fun mode =>
      match readFields mode [] {} members with
      | .error fault => .error fault
      | .ok node => .closing closed node
  | .array items closed =>
    .enter mode fun mode =>
      match readSlots mode 0 Field.all {} items with
      | .error fault => .error fault
      | .ok node =>
        if Field.all.length < items.length then .surplus mode items.length
        else .closing closed node
  | scan => .error (.wanting "struct SchemaNode" scan)
termination_by structural scan => scan

/-- A table of named nodes; a repeated name keeps its first place and its last node. -/
def readTable (mode : Mode) : Json.Scan → Reading (List (String × Node))
  | .object members closed =>
    .enter mode fun mode =>
      match readEntries mode members with
      | .error fault => .error fault
      | .ok entries => .closing closed (Entries.ofList entries)
  | scan => .error (.wanting "a map" scan)
termination_by structural scan => scan

/-- A list of nodes. -/
def readList (mode : Mode) : Json.Scan → Reading (List Node)
  | .array items closed =>
    .enter mode fun mode =>
      match readItems mode 0 items with
      | .error fault => .error fault
      | .ok nodes => .closing closed nodes
  | scan => .error (.wanting "a sequence" scan)
termination_by structural scan => scan

/-- The members of a node, with the fields that have been read. -/
def readFields (mode : Mode) (seen : List Field) (node : Node) :
    List (Option String × Json.Scan) → Reading Node
  | [] => .ok node
  | (none, _) :: _ => .error .malformed
  | (some name, scan) :: rest =>
    match Field.ofName? name with
    | none => if scan.isWhole then readFields mode seen node rest else .error .malformed
    | some field =>
      if field ∈ seen then .error (.unfit [] (.duplicateField name))
      else
        match Reading.within (.key name) (field.read mode scan (fun mode => readNode mode scan)
          (fun mode => readTable mode scan) (fun mode => readList mode scan) node) with
        | .error fault => .error fault
        | .ok node => readFields mode (field :: seen) node rest
termination_by structural members => members

/-- The items of an array as the given fields of a node. -/
def readSlots (mode : Mode) (position : Nat) (fields : List Field) (node : Node) :
    List Json.Scan → Reading Node
  | [] => .ok node
  | scan :: rest =>
    match fields with
    | [] => .ok node
    | field :: fields =>
      match Reading.within (.index position) (field.read mode scan (fun mode => readNode mode scan)
        (fun mode => readTable mode scan) (fun mode => readList mode scan) node) with
      | .error fault => .error fault
      | .ok node => readSlots mode (position + 1) fields node rest
termination_by structural items => items

/-- The members of a table. -/
def readEntries (mode : Mode) : List (Option String × Json.Scan) → Reading (List (String × Node))
  | [] => .ok []
  | (none, _) :: _ => .error .malformed
  | (some name, scan) :: rest =>
    match Reading.within (.key name) (readNode mode scan) with
    | .error fault => .error fault
    | .ok node => (readEntries mode rest).map ((name, node) :: ·)
termination_by structural members => members

/-- The nodes of an array from a position on. -/
def readItems (mode : Mode) (position : Nat) : List Json.Scan → Reading (List Node)
  | [] => .ok []
  | scan :: rest =>
    match Reading.within (.index position) (readNode mode scan) with
    | .error fault => .error fault
    | .ok node => (readItems mode (position + 1) rest).map (node :: ·)
termination_by structural items => items

end

end TypedTree.Schema

namespace TypedTree.Json

mutual

/-- The scan of a document that is held as a value. -/
def toScan : Json → Scan
  | .null => .null
  | .bool value => .bool value
  | .number value => .number (some value)
  | .text value => .text (some value)
  | .array items => .array (itemsToScan items) true
  | .object members => .object (membersToScan members) true
termination_by structural document => document

/-- The scans of items. -/
def itemsToScan : List Json → List Scan
  | [] => []
  | item :: rest => toScan item :: itemsToScan rest
termination_by structural items => items

/-- The scans of members. -/
def membersToScan : List (String × Json) → List (Option String × Scan)
  | [] => []
  | (key, value) :: rest => (some key, toScan value) :: membersToScan rest
termination_by structural members => members

end

end TypedTree.Json

namespace TypedTree.Schema.Node

/-- The node that a document writes. -/
def ofJson (document : Json) : Reading Node := readNode .value document.toScan

/-- The node that bytes of JSON write; nothing but blanks may follow it. -/
def ofBytes (bytes : List UInt8) : Reading Node :=
  let (scan, rest) := Json.Scan.ofBytes bytes
  match readNode (.text Json.depthLimit) scan with
  | .error fault => .error fault
  | .ok node => .closing rest.isEmpty node

end TypedTree.Schema.Node
