import TypedTree.Schema.Reading

/-!
# Schema documents

A document is a table of definitions. Swagger keeps it under `definitions`, OpenAPI under
`components.schemas`; where both are present the former is used. The rest of a document is skipped.
-/

namespace TypedTree.Schema

/-- The definitions of a document, in its order. -/
structure Document where
  definitions : List (String × Node)
  deriving Inhabited

/-- Why a document cannot be loaded. -/
inductive DocumentError where
  /-- Its file cannot be read. -/
  | unreadable (reason : String)
  /--
  Its text is not JSON. The place at which a reader of text noticed this and the words in which it
  says so are left out: one wording, at no place, stands for all of them.
  -/
  | malformed
  /-- A value in it is not of the form that its place asks for. -/
  | unfit (place : List Place) (cause : Fault.Cause)
  /-- It has no table of definitions. -/
  | missingDefinitions
  deriving DecidableEq, Repr

namespace DocumentError

/-- The text of an error. -/
def text : DocumentError → String
  | unreadable reason => "failed to read schema document: " ++ reason
  | malformed => "at JSON path . → malformed JSON"
  | unfit place cause => "at JSON path " ++ Place.pathText place ++ " → " ++ cause.message
  | missingDefinitions =>
    "schema document has neither `definitions` nor `components.schemas`"

/-- A fault of a document as a loading error. -/
def ofFault : Fault → DocumentError
  | .malformed => malformed
  | .unfit place cause => unfit place cause

end DocumentError

namespace Document

/-- The definition under an identifier. -/
def definition? (document : Document) (id : String) : Option Node :=
  Entries.get? document.definitions id

/-- The identifier of the first definition that describes a resource kind. -/
def definitionForKind? (document : Document) (tag : GroupVersionKind) : Option String :=
  (document.definitions.find? fun entry => tag ∈ entry.2.kinds).map Prod.fst

/-- A table of definitions, unless null stands in its place. -/
abbrev Table := Option (List (String × Node))

/--
Reads a structure of optional fields into a draft: an object whose known keys stand at most once, or
an array of the fields in order. `read` puts the value of a field into the draft.
-/
def readMembers {α : Type} (fields : List String) (read : String → Json.Scan → α → Reading α)
    (seen : List String) (draft : α) : List (Option String × Json.Scan) → Reading α
  | [] => .ok draft
  | (none, _) :: _ => .error .malformed
  | (some name, scan) :: rest =>
    if name ∈ fields then
      if name ∈ seen then .error (.unfit [] (.duplicateField name))
      else
        match Reading.within (.key name) (read name scan draft) with
        | .error fault => .error fault
        | .ok draft => readMembers fields read (name :: seen) draft rest
    else if scan.isWhole then readMembers fields read seen draft rest
    else .error .malformed

/-- Reads the items of an array as the fields of a structure. -/
def readItemFields {α : Type} (read : String → Json.Scan → α → Reading α) (position : Nat)
    (draft : α) : List String → List Json.Scan → Reading α
  | name :: fields, scan :: rest =>
    match Reading.within (.index position) (read name scan draft) with
    | .error fault => .error fault
    | .ok draft => readItemFields read (position + 1) draft fields rest
  | _, _ => .ok draft

/-- Reads a structure of optional fields. -/
def readStructure {α : Type} (title : String) (fields : List String)
    (read : Mode → String → Json.Scan → α → Reading α) (empty : α) (mode : Mode)
    (scan : Json.Scan) : Reading α :=
  match scan with
  | .object members closed =>
    .enter mode fun mode =>
      match readMembers fields (read mode) [] empty members with
      | .error fault => .error fault
      | .ok draft => .closing closed draft
  | .array items closed =>
    .enter mode fun mode =>
      match readItemFields (read mode) 0 empty fields items with
      | .error fault => .error fault
      | .ok draft =>
        if fields.length < items.length then .surplus mode items.length
        else .closing closed draft
  | scan => .error (.wanting title scan)

/-- The table of an OpenAPI document's components. -/
def readComponents : Mode → Json.Scan → Reading Table :=
  readStructure "struct RawComponents" ["schemas"]
    (fun mode _ scan _ => readOptional scan fun _ => readTable mode scan) none

/-- The tables of both dialects. -/
def readTables : Mode → Json.Scan → Reading (Table × Table) :=
  readStructure "struct RawDocument" ["definitions", "components"]
    (fun mode name scan tables =>
      if name = "definitions" then
        (readOptional scan fun _ => readTable mode scan).map fun table => (table, tables.2)
      else
        (readOptional scan fun _ => readComponents mode scan).map fun table =>
          (tables.1, table.getD none))
    (none, none)

/-- The document that a scan holds. -/
def ofScan (mode : Mode) (scan : Json.Scan) : Except DocumentError Document :=
  match readTables mode scan with
  | .error fault => .error (.ofFault fault)
  | .ok (some definitions, _) => .ok ⟨definitions⟩
  | .ok (none, some definitions) => .ok ⟨definitions⟩
  | .ok (none, none) => .error .missingDefinitions

/-- The document that a value writes. -/
def ofJson (document : Json) : Except DocumentError Document := ofScan .value document.toScan

/--
The document that the first value which a scanner finds in some bytes writes; what follows it is
ignored.
-/
def ofText (scan : Json.Scanner) (bytes : List UInt8) : Except DocumentError Document :=
  ofScan (.text Json.depthLimit) (scan bytes).1

/-- The document that the first JSON value of some bytes writes. -/
def ofBytes (bytes : List UInt8) : Except DocumentError Document := ofText Json.Scan.ofBytes bytes

end Document
end TypedTree.Schema
