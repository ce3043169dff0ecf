import TypedTree.Proofs.Schema.Loading
import TypedTree.Proofs.Schema.Parallel

/-!
# The two dialects of documents

Swagger documents keep their definitions in one container of the document, and refer to them there;
OpenAPI documents keep them in a container of a container. A document of the one dialect is turned
into one of the other by moving its table and every reference into it. Both name the same
definitions, so they are resolved alike. They are read alike from values; a reader of text has a
limit on nested containers, and the table of an OpenAPI document is one container closer to it.
-/

namespace TypedTree.Schema

/-! ## References into the tables -/

namespace Reference

/-- A reference with the part that it begins with exchanged, if it begins with that. -/
def moved (table other reference : String) : String :=
  match behind? table.toList reference.toList with
  | some rest => other ++ String.ofList rest
  | none => reference

/-- A reference into a Swagger table as one into an OpenAPI table. -/
def toOpenApi : String → String := moved "#/definitions/" "#/components/schemas/"

/-- A reference into an OpenAPI table as one into a Swagger table. -/
def toSwagger : String → String := moved "#/components/schemas/" "#/definitions/"

/-- A reference into a Swagger table. -/
def IntoDefinitions (reference : String) : Prop := ∃ id, reference = "#/definitions/" ++ id

/-- Behind the part that is exchanged, a reference stays as it is. -/
theorem moved_append (table other id : String) : moved table other (table ++ id) = other ++ id := by
  rw [moved, String.toList_append, behind?_append]
  simp

/-- What is moved into the other table can be moved back. -/
theorem toSwagger_toOpenApi {reference : String} (into : IntoDefinitions reference) :
    toSwagger (toOpenApi reference) = reference := by
  obtain ⟨id, rfl⟩ := into
  rw [toOpenApi, toSwagger, moved_append, moved_append]

/-- A reference that is moved into the other table names the same definition. -/
theorem target_toOpenApi {reference : String} (into : IntoDefinitions reference) :
    target (toOpenApi reference) = target reference := by
  obtain ⟨id, rfl⟩ := into
  have first : lastSegment ("#/definitions/".toList ++ id.toList) = lastSegment id.toList :=
    lastSegment_append "#/definitions".toList id.toList
  have second : lastSegment ("#/components/schemas/".toList ++ id.toList) =
      lastSegment id.toList :=
    lastSegment_append "#/components/schemas".toList id.toList
  rw [toOpenApi, moved_append, target, target, String.toList_append, String.toList_append,
    tableEntry?_append (by simp [tables]), tableEntry?_append (by simp [tables]), first, second]

end Reference

/-! ## Documents of one table -/

/-- A place does not decide whether a value is read. -/
@[simp]
theorem Reading.toOption_within {α : Type} (step : Place) (reading : Reading α) :
    (reading.within step).toOption = reading.toOption := by
  cases reading <;> rfl

/-- What is read inside of a container, if it may be entered. -/
theorem Reading.toOption_enter {α : Type} (mode : Mode) (inside : Mode → Reading α) :
    (Reading.enter mode inside).toOption =
      mode.enter?.bind fun inner => (inside inner).toOption := by
  unfold Reading.enter
  cases mode.enter? <;> rfl

/-- What is made of a reading. -/
@[simp]
theorem Reading.toOption_map {α β : Type} (change : α → β) (reading : Reading α) :
    (reading.map change).toOption = reading.toOption.map change := by
  cases reading <;> rfl

namespace Document

/-- A structure with one of its fields has what is read for the field. -/
theorem readStructure_single {α : Type} {title name : String} {fields : List String}
    {read : Mode → String → Json.Scan → α → Reading α} {empty : α} (known : name ∈ fields)
    (mode : Mode) (scan : Json.Scan) :
    (readStructure title fields read empty mode (.object [(some name, scan)] true)).toOption =
      mode.enter?.bind fun inner => (read inner name scan empty).toOption := by
  rw [readStructure, Reading.toOption_enter]
  congr 1
  funext inner
  have same := Reading.toOption_within (.key name) (read inner name scan empty)
  rw [readMembers, if_pos known, if_neg (by simp), ← same]
  cases Reading.within (.key name) (read inner name scan empty) <;> rfl

/-- An object is never absent. -/
theorem readOptional_object {α : Type} (members : List (Option String × Json.Scan))
    (closed : Bool) (read : Unit → Reading α) :
    readOptional (.object members closed) read = (read ()).map some := rfl

/-- A document that keeps a table as Swagger does. -/
def swagger (table : Json) : Json := .object [("definitions", table)]

/-- A document that keeps a table as OpenAPI does. -/
def openApi (table : Json) : Json := .object [("components", .object [("schemas", table)])]

/-- The scan of a document that keeps a table as Swagger does. -/
def swaggerScan (table : Json.Scan) : Json.Scan := .object [(some "definitions", table)] true

/-- The scan of a document that keeps a table as OpenAPI does. -/
def openApiScan (table : Json.Scan) : Json.Scan :=
  .object [(some "components", .object [(some "schemas", table)] true)] true

/-- The document of a table that is read, if it is there. -/
def ofTable? (mode : Mode) (table : Json.Scan) : Option Document :=
  ((readOptional table fun _ => readTable mode table).toOption.bind id).map Document.mk

/-- The document of the tables that are read, if one of them is there. -/
theorem toOption_ofScan (mode : Mode) (scan : Json.Scan) :
    (ofScan mode scan).toOption =
      (readTables mode scan).toOption.bind fun tables =>
        (tables.1.or tables.2).map Document.mk := by
  unfold ofScan
  cases readTables mode scan with
  | error fault => rfl
  | ok tables =>
    obtain ⟨first, second⟩ := tables
    cases first <;> cases second <;> rfl

/-- A Swagger document has its table one container inside. -/
theorem ofScan_swaggerScan (mode : Mode) (table : Json.Scan) :
    (ofScan mode (swaggerScan table)).toOption = mode.enter?.bind (ofTable? · table) := by
  rw [toOption_ofScan, swaggerScan, readTables, readStructure_single (by simp)]
  cases mode.enter? with
  | none => rfl
  | some inner =>
    simp only [Option.bind_some, ↓reduceIte, Reading.toOption_map, ofTable?]
    cases (readOptional table fun _ => readTable inner table).toOption with
    | none => rfl
    | some found => cases found <;> rfl

/-- An OpenAPI document has its table two containers inside. -/
theorem ofScan_openApiScan (mode : Mode) (table : Json.Scan) :
    (ofScan mode (openApiScan table)).toOption =
      (mode.enter?.bind Mode.enter?).bind (ofTable? · table) := by
  rw [toOption_ofScan, openApiScan, readTables, readStructure_single (by simp)]
  cases mode.enter? with
  | none => rfl
  | some inner =>
    simp only [Option.bind_some, String.reduceEq, ↓reduceIte, Reading.toOption_map]
    rw [readOptional_object, Reading.toOption_map, readComponents, readStructure_single (by simp)]
    cases inner.enter? with
    | none => rfl
    | some innermost =>
      simp only [Option.bind_some, ofTable?]
      cases (readOptional table fun _ => readTable innermost table).toOption with
      | none => rfl
      | some found => cases found <;> rfl

section Changed

variable (change : String → String) (table : Json.Scan) {strict : Prop} {mode larger : Mode}

/-- A table that may be absent is read with the change. -/
theorem readDefinitions_renamed (more : mode.Within strict larger) :
    ReadAlike strict (Option.map (Node.tableRenamed change))
      (readOptional table fun _ => readTable mode table)
      (readOptional (table.renamed change .table) fun _ =>
        readTable larger (table.renamed change .table)) :=
  readOptional_renamed change .table table (readTable_renamed change more table)

/-- A table is read with the change as the definitions of a document. -/
theorem ofTable?_renamed (mode : Mode) :
    ofTable? mode (table.renamed change .table) =
      (ofTable? mode table).map (Document.renamed change) := by
  have same : mode.Within True mode := by
    cases mode with
    | text depth => exact .text (Nat.le_refl depth) fun _ => rfl
    | value => exact .value
  rw [ofTable?, (readDefinitions_renamed change table same).toOption_eq, ofTable?]
  cases (readOptional table fun _ => readTable mode table).toOption with
  | none => rfl
  | some found =>
    cases found with
    | none => rfl
    | some definitions => simp [renamed, Node.tableRenamed_eq]

/-- A table that is read in some mode is read with the change in one that allows as much. -/
theorem ofTable?_of_within (more : mode.Within False larger) {document : Document}
    (read : ofTable? mode table = some document) :
    ofTable? larger (table.renamed change .table) = some (document.renamed change) := by
  obtain ⟨definitions, found, rfl⟩ := Option.map_eq_some_iff.1 read
  obtain ⟨_, found, rfl⟩ := Option.bind_eq_some_iff.1 found
  rw [ofTable?, (readDefinitions_renamed change table more).toOption_eq_some found]
  simp [renamed, Node.tableRenamed_eq]

end Changed

/-! ## One dialect for the other -/

section Exchanged

open Reference

/-- A table that is read from a text is read one container further out. -/
theorem ofTable?_of_openApi (depth : Nat) (table : Json.Scan) {loaded : Document}
    (read : ofTable? (.text depth) (table.renamed toOpenApi .table) = some loaded) :
    ∃ own, ofTable? (.text (depth + 1)) table = some own ∧ loaded = own.renamed toOpenApi := by
  rw [ofTable?_renamed] at read
  obtain ⟨document, found, rfl⟩ := Option.map_eq_some_iff.1 read
  have more : Mode.Within False (.text depth) (.text (depth + 1)) :=
    .text (Nat.le_succ depth) False.elim
  have further := ofTable?_of_within toOpenApi table more found
  rw [ofTable?_renamed] at further
  obtain ⟨own, there, same⟩ := Option.map_eq_some_iff.1 further
  exact ⟨own, there, same.symm⟩

/--
A document of definitions is loaded from values in either dialect, or in neither, with the same
nodes but for their references. From texts, however they are scanned, the OpenAPI one is loaded
where the Swagger one is within one nested container less than a reader takes, and then the Swagger
one is loaded, too. Resolving a node of the one or of the other, with an empty table and any budget,
gives the same shape, or errors of the same place and cause that name the same reference, each in
its dialect.
-/
theorem openApi_acts_as_swagger {κ : Type} [DecidableEq κ] [Digest κ] :
    (∀ table : Json,
      (ofJson (openApi (table.renamed toOpenApi .table))).toOption =
        (ofJson (swagger table)).toOption.map (renamed toOpenApi)) ∧
    (∀ (scan : Json.Scanner) (bytes other : List UInt8) (table : Json.Scan),
      (scan bytes).1 = swaggerScan table →
      (scan other).1 = openApiScan (table.renamed toOpenApi .table) →
      (ofText scan other).toOption =
        (ofScan (.text (Json.depthLimit - 1)) (swaggerScan table)).toOption.map
          (renamed toOpenApi) ∧
      ∀ loaded, (ofText scan other).toOption = some loaded →
        ∃ own, (ofText scan bytes).toOption = some own ∧ loaded = own.renamed toOpenApi) ∧
    ∀ (document : Document) (node : Node), document.WellFormed → node.WellFormed →
      (∀ entry ∈ document.definitions, entry.2.Refers IntoDefinitions) →
      node.Refers IntoDefinitions → node.KeyedApart κ document.definitions →
      (node.renamed toOpenApi).KeyedApart κ (document.renamed toOpenApi).definitions →
      ∀ budget, (resolve (document.renamed toOpenApi).definitions budget (node.renamed toOpenApi)
          (.empty : Memo κ Shape)).1 =
        (resolve document.definitions budget node (.empty : Memo κ Shape)).1.mapError
          (SchemaError.renamed toOpenApi) := by
  refine ⟨fun table => ?_, fun scan bytes other table scanned scannedOther => ?_, ?_⟩
  · have own : (ofJson (swagger table)).toOption = ofTable? .value table.toScan :=
      ofScan_swaggerScan .value table.toScan
    have moved : (ofJson (openApi (table.renamed toOpenApi .table))).toOption =
        ofTable? .value (table.renamed toOpenApi .table).toScan :=
      ofScan_openApiScan .value _
    rw [own, moved, Json.toScan_renamed, ofTable?_renamed]
  · have own : (ofText scan bytes).toOption = ofTable? (.text 126) table := by
      rw [ofText, scanned]
      exact ofScan_swaggerScan (.text 127) table
    have moved : (ofText scan other).toOption =
        ofTable? (.text 125) (table.renamed toOpenApi .table) := by
      rw [ofText, scannedOther]
      exact ofScan_openApiScan (.text 127) _
    have lower : (ofScan (.text (Json.depthLimit - 1)) (swaggerScan table)).toOption =
        ofTable? (.text 125) table := ofScan_swaggerScan (.text 126) table
    rw [own, moved, lower]
    exact ⟨ofTable?_renamed toOpenApi table _, fun loaded => ofTable?_of_openApi 125 table⟩
  · intro document node formed start table refers apart apartOther budget
    exact resolve_renamed (refers.harmless start table formed (fun _ => target_toOpenApi)
      (fun _ => toSwagger_toOpenApi) apart apartOther) .refl budget

end Exchanged

/-! ## A document in both dialects -/

/-- A list of what a reference names. -/
def listOf (reference : String) : Node :=
  { kind := some "array", items := some { reference := some reference } }

/-- A document that defines a name as a text. -/
def naming : Document := ⟨[("Name", .ofType "string")]⟩

/-- The nodes to which a list of names leads, by a reference into the one or the other table. -/
def namingNodes (reference : String) : List Node :=
  [listOf reference, { reference := some reference }, .ofType "string"]

section Naming

open Reference

variable {reference : String}

/-- The nodes have distinct property names, since they have none. -/
theorem wellFormed_namingNodes : ∀ node ∈ namingNodes reference, node.WellFormed := by
  have named : ({ reference := some reference } : Node).WellFormed := by constructor <;> simp
  have list : (listOf reference).WellFormed := by constructor <;> simp [listOf, named]
  simp [namingNodes, list, named, Node.wellFormed_ofType]

/-- No two of the nodes share a fingerprint. -/
theorem keyedApart_naming
    (either : reference = "#/definitions/Name" ∨ reference = "#/components/schemas/Name") :
    (listOf reference).KeyedApart (List UInt8) naming.definitions := by
  have parts : (namingNodes reference).map (fun node => (node.form naming.definitions).parts) =
      [[{ reference := some reference }], [.ofType "string"], []] := by
    rcases either with rfl | rfl <;> cbv
  have formed : ∀ node ∈ namingNodes reference, node.WellFormed := wellFormed_namingNodes
  refine Node.keyedApart_of_lengths formed ?_ ?_ List.mem_cons_self
  · intro node held part below
    have among := List.mem_map_of_mem
      (f := fun node => (node.form naming.definitions).parts) held
    rw [parts] at among
    simp only [List.mem_cons, List.not_mem_nil, or_false] at among
    rcases among with same | same | same <;> rw [same] at below
    · simp [namingNodes, List.mem_singleton.1 below]
    · simp [namingNodes, List.mem_singleton.1 below]
    · cases below
  · rcases either with rfl | rfl <;> decide +kernel

/-- The text of a document that keeps a table as Swagger does. -/
def swaggerText (table : List UInt8) : List UInt8 :=
  "\x7b\"definitions\":".toUTF8.toList ++ table ++ "\x7d".toUTF8.toList

/-- The text of a document that keeps a table as OpenAPI does. -/
def openApiText (table : List UInt8) : List UInt8 :=
  "\x7b\"components\":\x7b\"schemas\":".toUTF8.toList ++ table ++ "\x7d\x7d".toUTF8.toList

/-- The text of a table of one definition, which is a reference. -/
def aliasText (reference : String) : List UInt8 :=
  "\x7b\"Alias\":\x7b\"$ref\":\"".toUTF8.toList ++ reference.toUTF8.toList ++
    "\"\x7d\x7d".toUTF8.toList

/-- The table of one definition, which is a reference. -/
def aliasTable (reference : String) : Json :=
  .object [("Alias", .object [("$ref", .text reference)])]

/-- A document that defines one name by another is loaded in both dialects. -/
theorem naming_in_both_dialects :
    (ofJson (openApi ((aliasTable "#/definitions/Name").renamed toOpenApi .table))).toOption =
        (ofJson (swagger (aliasTable "#/definitions/Name"))).toOption.map (renamed toOpenApi) ∧
      (ofBytes (openApiText (aliasText "#/components/schemas/Name"))).toOption =
        (ofScan (.text (Json.depthLimit - 1))
          (swaggerScan (aliasTable "#/definitions/Name").toScan)).toOption.map
            (renamed toOpenApi) ∧
      ∀ budget, (resolve naming.definitions budget (listOf "#/components/schemas/Name")
          (.empty : Memo (List UInt8) Shape)).1 =
        (resolve naming.definitions budget (listOf "#/definitions/Name")
          (.empty : Memo (List UInt8) Shape)).1.mapError (SchemaError.renamed toOpenApi) := by
  have all := openApi_acts_as_swagger (κ := List UInt8)
  have node : (listOf "#/definitions/Name").renamed toOpenApi =
      listOf "#/components/schemas/Name" := by cbv
  have same : naming.renamed toOpenApi = naming := by rfl
  have swaggerScanned : (Json.Scan.ofBytes (swaggerText (aliasText "#/definitions/Name"))).1 =
      swaggerScan (aliasTable "#/definitions/Name").toScan := by cbv
  have openApiScanned :
      (Json.Scan.ofBytes (openApiText (aliasText "#/components/schemas/Name"))).1 =
      openApiScan ((aliasTable "#/definitions/Name").toScan.renamed toOpenApi .table) := by cbv
  have apart := keyedApart_naming (.inr rfl)
  rw [← same, ← node] at apart
  have formed : naming.WellFormed := by simp [naming, WellFormed, Node.wellFormed_ofType]
  have refers : (listOf "#/definitions/Name").Refers IntoDefinitions := by
    have into : IntoDefinitions "#/definitions/Name" := ⟨"Name", rfl⟩
    have item : ({ reference := some "#/definitions/Name" } : Node).Refers IntoDefinitions := by
      constructor <;> simp [into]
    constructor <;> simp [listOf, item]
  have resolved := all.2.2 naming (listOf "#/definitions/Name") formed
    (wellFormed_namingNodes _ List.mem_cons_self) (by simp [naming, Node.refers_ofType]) refers
    (keyedApart_naming (.inl rfl)) apart
  rw [node] at resolved
  exact ⟨all.1 _, (all.2.1 Json.Scan.ofBytes _ _ _ swaggerScanned openApiScanned).1, resolved⟩

end Naming

/-! ## A table that nests as deep as a reader of text allows -/

/-- The text of a node in so many nodes, each of which is the only `allOf` member of the next. -/
def nestedText : Nat → List UInt8
  | 0 => "\x7b\x7d".toUTF8.toList
  | count + 1 => "\x7b\"allOf\":[".toUTF8.toList ++ nestedText count ++ "]\x7d".toUTF8.toList

/-- The text of a table in which 126 containers are nested, and which has no references. -/
def deepTable : List UInt8 :=
  "\x7b\"A\":".toUTF8.toList ++ nestedText 62 ++ "\x7d".toUTF8.toList

/--
A table without references that is loaded from a Swagger text, but not from the OpenAPI text, in
which it stands one container deeper.
-/
theorem deepTable_loads_only_from_swagger :
    '$'.toUInt8 ∉ deepTable ∧ (ofBytes (swaggerText deepTable)).toOption.isSome ∧
      (ofBytes (openApiText deepTable)).toOption = none := by
  have absent : (ofBytes (openApiText deepTable)).toOption.isNone = true := by decide +kernel
  exact ⟨by decide +kernel, by decide +kernel, Option.isNone_iff_eq_none.1 absent⟩

end Document
end TypedTree.Schema
