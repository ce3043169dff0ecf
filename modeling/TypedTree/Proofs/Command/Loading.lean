import TypedTree.Command.Batch
import TypedTree.Proofs.Paired

/-!
# What a batch is

A batch is described here without the order in which it is read. Each pattern stands for paths,
each file of these holds documents, and the pointer and the filter leave some inputs of each
document; the batch is all of these inputs in the order of the patterns, files, lines and outputs.
It is loaded exactly when nothing on the way is amiss, and a batch that is not loaded fails for a
reason that is there.
-/

namespace TypedTree

/-- A filter that does not fail has given all of its outputs. -/
theorem Tools.filtered_eq_ok_iff {tools : Tools} {source : String} {document : Json}
    {outputs : List Json} :
    tools.filtered source document = .ok outputs ↔
      tools.filter source document = .ok ⟨outputs, false⟩ := by
  unfold filtered
  cases tools.filter source document with
  | error failure => simp
  | ok given =>
    obtain ⟨documents, failed⟩ := given
    cases failed <;> simp [Filter.Outputs.complete]

/-- A filter fails at once, or behind some outputs. -/
theorem Tools.filtered_eq_error_iff {tools : Tools} {source : String} {document : Json}
    {failure : Filter.Failure} :
    tools.filtered source document = .error failure ↔
      tools.filter source document = .error failure ∨
        ∃ outputs, tools.filter source document = .ok ⟨outputs, true⟩ ∧
          failure = .stopped outputs.length := by
  unfold filtered
  cases tools.filter source document with
  | error own => simp
  | ok given =>
    obtain ⟨documents, failed⟩ := given
    cases failed <;> simp [Filter.Outputs.complete, eq_comm]

namespace Selection

/-! ## One after another -/

section Steps

variable {α β : Type} {first : Except Failure α} {next : α → Except Failure β}

/-- Two steps give something when both do. -/
theorem bind_eq_ok_iff {result : β} :
    first.bind next = .ok result ↔ ∃ found, first = .ok found ∧ next found = .ok result := by
  cases first <;> simp [Except.bind]

/-- Two steps fail when one of them does. -/
theorem bind_eq_error_iff {failure : Failure} :
    first.bind next = .error failure ↔
      first = .error failure ∨ ∃ found, first = .ok found ∧ next found = .error failure := by
  cases first <;> simp [Except.bind]

end Steps

section Gather

variable {α β : Type} {each : α → Except Failure (List β)} {items : List α}

/-- What an item gives comes before what is gathered of the others. -/
theorem gather_cons_eq_ok_iff {item : α} {all : List β} :
    gather each (item :: items) = .ok all ↔
      ∃ part others, each item = .ok part ∧ gather each items = .ok others ∧
        all = part ++ others := by
  rw [gather]
  cases each item with
  | error failure => simp
  | ok part =>
    cases gather each items with
    | error failure => simp [Except.map]
    | ok others => simp [Except.map, eq_comm]

/-- Items are gathered when each gives something, and all of that is one behind the other. -/
theorem gather_eq_ok_iff {all : List β} :
    gather each items = .ok all ↔
      ∃ parts, List.Forall₂ (fun item part => each item = .ok part) items parts ∧
        all = parts.flatten := by
  induction items generalizing all with
  | nil => simp [gather, eq_comm]
  | cons item rest ih =>
    rw [gather_cons_eq_ok_iff]
    constructor
    · rintro ⟨part, others, given, behind, rfl⟩
      obtain ⟨parts, paired, rfl⟩ := ih.1 behind
      exact ⟨part :: parts, .cons given paired, rfl⟩
    · rintro ⟨_, paired, rfl⟩
      cases paired with
      | @cons _ part _ parts given paired =>
        exact ⟨part, parts.flatten, given, ih.2 ⟨parts, paired, rfl⟩, rfl⟩

/-- Items are not gathered when one of them gives nothing. -/
theorem exists_gather_eq_error {item : α} (held : item ∈ items) {failure : Failure}
    (fails : each item = .error failure) : ∃ first, gather each items = .error first := by
  cases gathered : gather each items with
  | error first => exact ⟨first, rfl⟩
  | ok all =>
    obtain ⟨parts, paired, _⟩ := gather_eq_ok_iff.1 gathered
    obtain ⟨part, _, given⟩ := Paired.exists_right paired held
    rw [fails] at given
    cases given

/-- When items are not gathered, this is for the reason of one of them. -/
theorem exists_mem_of_gather_eq_error {failure : Failure}
    (fails : gather each items = .error failure) : ∃ item ∈ items, each item = .error failure := by
  induction items with
  | nil => cases fails
  | cons item rest ih =>
    unfold gather at fails
    cases given : each item with
    | error own =>
      rw [given] at fails
      obtain rfl := Except.error.inj fails
      exact ⟨item, List.mem_cons_self, given⟩
    | ok part =>
      rw [given] at fails
      cases others : gather each rest with
      | ok behind =>
        rw [others] at fails
        cases fails
      | error own =>
        rw [others] at fails
        obtain rfl := Except.error.inj fails
        obtain ⟨later, held, reason⟩ := ih others
        exact ⟨later, List.mem_cons_of_mem _ held, reason⟩

end Gather

variable {tools : Tools} {selection : Selection} {path text label : String} {document : Json}

/-! ## Documents of a text -/

/-- The documents that a text holds: one on each line that is not blank, or a single one. -/
def Holds (tools : Tools) (selection : Selection) (text : String) (documents : List Json) :
    Prop :=
  if selection.linewise then
    List.Forall₂ (fun line document => tools.read? (String.ofList line) = some document)
      ((Text.lines text.toList).filter fun line => !line.all Text.isBlank) documents
  else ∃ document, tools.read? text = some document ∧ documents = [document]

/-- Lines give the documents of those among them that are not blank. -/
theorem gather_ofLine_eq_ok_iff {lines : List (List Char)} {number : Nat}
    {documents : List Json} :
    gather (ofLine tools path) (lines.zipIdx number) = .ok documents ↔
      List.Forall₂ (fun line document => tools.read? (String.ofList line) = some document)
        (lines.filter fun line => !line.all Text.isBlank) documents := by
  induction lines generalizing number documents with
  | nil => simp [gather, eq_comm]
  | cons line rest ih =>
    rw [List.zipIdx_cons, gather_cons_eq_ok_iff, ofLine]
    by_cases blank : line.all Text.isBlank = true
    · rw [List.filter_cons_of_neg (by simp [blank]), if_pos blank, ← @ih (number + 1)]
      simp
    · rw [List.filter_cons_of_pos (by simpa using blank), if_neg blank]
      cases read : tools.read? (String.ofList line) with
      | none => simp [List.forall₂_cons_left_iff, read]
      | some document =>
        simp only [Except.ok.injEq, ih, List.forall₂_cons_left_iff, read, Option.some.injEq]
        constructor
        · rintro ⟨_, others, rfl, behind, rfl⟩
          exact ⟨document, others, rfl, behind, rfl⟩
        · rintro ⟨_, others, rfl, behind, rfl⟩
          exact ⟨[document], others, rfl, behind, rfl⟩

/-- The documents of a text are those that it holds. -/
theorem documents_eq_ok_iff {documents : List Json} :
    selection.documents tools path text = .ok documents ↔
      selection.Holds tools text documents := by
  unfold Selection.documents Holds
  split
  · exact gather_ofLine_eq_ok_iff
  · cases tools.read? text <;> simp [eq_comm]

/-! ## Inputs of a document -/

/-- The part of a document that the pointer names; without a pointer, the whole. -/
def Points (selection : Selection) (document part : Json) : Prop :=
  match selection.pointer with
  | none => part = document
  | some pointer => Json.Pointer.select? pointer document = some part

/--
The inputs that the pointer and the filter leave of a document: the part itself, or the outputs of
the filter for it, all of them, which share the label of the document and are numbered if they are
several.
-/
def Leaves (tools : Tools) (selection : Selection) (label : String) (document : Json)
    (inputs : List Input) : Prop :=
  ∃ part, selection.Points document part ∧
    match selection.filter with
    | none => inputs = [⟨label, part⟩]
    | some source => ∃ outputs, tools.filter source part = .ok ⟨outputs, false⟩ ∧
        inputs = outputs.mapIdx fun position output =>
          ⟨if 1 < outputs.length then label ++ "[" ++ toString position ++ "]" else label, output⟩

/-- Numbered documents are told apart by their position. -/
theorem numbered_eq (label : String) (position : Nat) (documents : List Json) :
    numbered label position documents = documents.mapIdx fun later document =>
      ⟨label ++ "[" ++ toString (position + later) ++ "]", document⟩ := by
  induction documents generalizing position with
  | nil => rfl
  | cons document rest ih =>
    rw [numbered, ih, List.mapIdx_cons]
    simp [Nat.add_assoc, Nat.add_comm 1]

/-- Only several documents are numbered. -/
theorem labelled_eq (label : String) (documents : List Json) :
    labelled label documents = documents.mapIdx fun position document =>
      ⟨if 1 < documents.length then label ++ "[" ++ toString position ++ "]" else label,
        document⟩ := by
  match documents with
  | [] => rfl
  | [document] => rfl
  | first :: second :: rest =>
    rw [labelled, numbered_eq]
    · simp
    · simp

/-- The part of a document is the one to which the pointer points. -/
theorem pointed_eq_ok_iff {part : Json} :
    selection.pointed label document = .ok part ↔ selection.Points document part := by
  unfold pointed Points
  cases selection.pointer with
  | none => simp [eq_comm]
  | some pointer =>
    dsimp only
    cases Json.Pointer.select? pointer document <;> simp

/-- The inputs of a document are selected in two steps. -/
theorem select_eq (tools : Tools) (selection : Selection) (label : String) (document : Json) :
    selection.select tools label document =
      (selection.pointed label document).bind fun part =>
        match selection.filter with
        | none => .ok [⟨label, part⟩]
        | some source =>
          match tools.filtered source part with
          | .ok outputs => .ok (labelled label outputs)
          | .error failure => .error (.filter label failure) := by
  unfold select
  cases selection.pointed label document <;> rfl

/-- What the pointer and then the filter leave of a document is what they are said to leave. -/
theorem select_eq_ok_iff {inputs : List Input} :
    selection.select tools label document = .ok inputs ↔
      selection.Leaves tools label document inputs := by
  rw [select_eq, bind_eq_ok_iff]
  simp only [pointed_eq_ok_iff, Leaves]
  refine exists_congr fun part => and_congr_right fun _ => ?_
  cases selection.filter with
  | none => simp [eq_comm]
  | some source =>
    simp only [← Tools.filtered_eq_ok_iff, ← labelled_eq]
    cases tools.filtered source part <;> simp [eq_comm]

/-! ## Inputs of a batch -/

section Batch

variable (tools : Tools) (selection : Selection) (disk : Disk)

/-- The inputs of a file: those that are left of each of its documents, in order. -/
def FileGives (path : String) (inputs : List Input) : Prop :=
  ∃ text documents groups, disk.readText path = .ok text ∧
    selection.Holds tools text documents ∧
    List.Forall₂
      (fun entry group => selection.Leaves tools (selection.label path entry.2) entry.1 group)
      documents.zipIdx groups ∧
    inputs = groups.flatten

/-- The paths that a text stands for: itself, or as a pattern all that it matches. -/
def StandsFor (text : String) (paths : List String) : Prop :=
  if Glob.isPattern text then tools.expand disk text = .ok paths ∧ paths ≠ [] else paths = [text]

/-- The inputs of a batch: those of each file for which a pattern stands, in order. -/
def Gathers (patterns : List String) (inputs : List Input) : Prop :=
  ∃ paths groups, List.Forall₂ (StandsFor tools disk) patterns paths ∧
    List.Forall₂ (FileGives tools selection disk) paths.flatten groups ∧ inputs = groups.flatten

variable {tools selection disk}

/-- The inputs of a file that is read are found in two steps. -/
theorem ofFile_eq {path text : String} (read : disk.readText path = .ok text) :
    selection.ofFile tools disk path =
      (selection.documents tools path text).bind fun documents =>
        gather (fun entry => selection.select tools (selection.label path entry.2) entry.1)
          documents.zipIdx := by
  unfold ofFile
  rw [read]
  dsimp only
  cases selection.documents tools path text <;> rfl

/-- The inputs of a file are those that it gives. -/
theorem ofFile_eq_ok_iff {path : String} {inputs : List Input} :
    selection.ofFile tools disk path = .ok inputs ↔ FileGives tools selection disk path inputs := by
  unfold FileGives
  cases read : disk.readText path with
  | error error => simp [ofFile, read]
  | ok text =>
    rw [ofFile_eq read, bind_eq_ok_iff]
    simp [documents_eq_ok_iff, gather_eq_ok_iff, select_eq_ok_iff]

/-- The paths of a text are those for which it stands. -/
theorem paths_eq_ok_iff {text : String} {found : List String} :
    paths tools disk text = .ok found ↔ StandsFor tools disk text found := by
  unfold paths StandsFor
  split
  · cases tools.expand disk text with
    | error fault => simp
    | ok matched =>
      cases matched with
      | nil => simp +contextual
      | cons path rest =>
        simp only [Except.ok.injEq, iff_self_and]
        rintro rfl
        simp
  · simp [eq_comm]

/-- A batch is loaded in two steps. -/
theorem load_eq (tools : Tools) (selection : Selection) (disk : Disk) (patterns : List String) :
    selection.load tools disk patterns =
      (gather (paths tools disk) patterns).bind (gather (selection.ofFile tools disk)) := by
  unfold load
  cases gather (paths tools disk) patterns <;> rfl

/-- A batch is loaded when it can be gathered, and is what is gathered then. -/
theorem load_eq_ok_iff {patterns : List String} {inputs : List Input} :
    selection.load tools disk patterns = .ok inputs ↔
      Gathers tools selection disk patterns inputs := by
  rw [load_eq, bind_eq_ok_iff]
  simp only [gather_eq_ok_iff, ofFile_eq_ok_iff, paths_eq_ok_iff, Gathers]
  constructor
  · rintro ⟨_, ⟨found, stand, rfl⟩, groups, files, rfl⟩
    exact ⟨found, groups, stand, files, rfl⟩
  · rintro ⟨found, groups, stand, files, rfl⟩
    exact ⟨_, ⟨found, stand, rfl⟩, groups, files, rfl⟩

end Batch

/-! ## What stands in the way -/

/-- What is amiss with the text of a file: it is no document, or one of its lines is none. -/
inductive Malformed (tools : Tools) (selection : Selection) (path text : String) : Failure → Prop
  | file (whole : selection.linewise = false) (unread : tools.read? text = none) :
      Malformed tools selection path text (.malformedFile path)
  | line {line : List Char} {position : Nat} (linewise : selection.linewise = true)
      (stands : (Text.lines text.toList)[position]? = some line)
      (filled : line.all Text.isBlank = false) (unread : tools.read? (String.ofList line) = none) :
      Malformed tools selection path text (.malformedLine path (position + 1))

/-- What is amiss with a document: the pointer points nowhere, or the filter fails. -/
inductive Spoils (tools : Tools) (selection : Selection) (label : String) (document : Json) :
    Failure → Prop
  | pointer {pointer : String} (asked : selection.pointer = some pointer)
      (nowhere : Json.Pointer.select? pointer document = none) :
      Spoils tools selection label document (.pointer label pointer)
  | refused {source : String} {part : Json} {failure : Filter.Failure}
      (points : selection.Points document part) (asked : selection.filter = some source)
      (fails : tools.filter source part = .error failure) :
      Spoils tools selection label document (.filter label failure)
  | stopped {source : String} {part : Json} {outputs : List Json}
      (points : selection.Points document part) (asked : selection.filter = some source)
      (fails : tools.filter source part = .ok ⟨outputs, true⟩) :
      Spoils tools selection label document (.filter label (.stopped outputs.length))

/-- A line is not read for the reason that it says. -/
theorem ofLine_eq_error_iff {line : List Char × Nat} {failure : Failure} :
    ofLine tools path line = .error failure ↔
      line.1.all Text.isBlank = false ∧ tools.read? (String.ofList line.1) = none ∧
        failure = .malformedLine path line.2 := by
  unfold ofLine
  cases line.1.all Text.isBlank with
  | true => simp
  | false => cases tools.read? (String.ofList line.1) <;> simp [eq_comm]

/-- A text that is not read is malformed. -/
theorem malformed_of_documents {failure : Failure}
    (fails : selection.documents tools path text = .error failure) :
    selection.Malformed tools path text failure := by
  unfold Selection.documents at fails
  split at fails
  · rename_i linewise
    obtain ⟨⟨line, number⟩, held, reason⟩ := exists_mem_of_gather_eq_error fails
    obtain ⟨filled, unread, rfl⟩ := ofLine_eq_error_iff.1 reason
    obtain ⟨later, stands⟩ := List.mem_zipIdx_iff_le_and_getElem?_sub.1 held
    obtain ⟨position, rfl⟩ := Nat.exists_eq_add_of_le' later
    exact .line linewise (by simpa using stands) filled unread
  · rename_i whole
    split at fails
    · rename_i unread
      obtain rfl := Except.error.inj fails
      exact .file (by simpa using whole) unread
    · cases fails

/-- A malformed text is not read. -/
theorem Malformed.exists_documents {failure : Failure}
    (malformed : selection.Malformed tools path text failure) :
    ∃ first, selection.documents tools path text = .error first := by
  unfold Selection.documents
  cases malformed with
  | file whole unread => simp [whole, unread]
  | @line line position linewise stands filled unread =>
    rw [if_pos linewise]
    have held : (line, position + 1) ∈ (Text.lines text.toList).zipIdx 1 := by
      rw [List.mem_zipIdx_iff_le_and_getElem?_sub]
      simpa using stands
    exact exists_gather_eq_error held (ofLine_eq_error_iff.2 ⟨filled, unread, rfl⟩)

/-- A pointer fails where it points nowhere. -/
theorem pointed_eq_error_iff {failure : Failure} :
    selection.pointed label document = .error failure ↔
      ∃ pointer, selection.pointer = some pointer ∧
        Json.Pointer.select? pointer document = none ∧ failure = .pointer label pointer := by
  unfold pointed
  cases selection.pointer with
  | none => simp
  | some pointer =>
    dsimp only
    cases found : Json.Pointer.select? pointer document with
    | none => simp [found, eq_comm]
    | some part => simp [found]

/-- A document is not selected for the reasons that spoil it. -/
theorem select_eq_error_iff {failure : Failure} :
    selection.select tools label document = .error failure ↔
      selection.Spoils tools label document failure := by
  rw [select_eq, bind_eq_error_iff]
  constructor
  · rintro (fails | ⟨part, points, fails⟩)
    · obtain ⟨pointer, asked, nowhere, rfl⟩ := pointed_eq_error_iff.1 fails
      exact .pointer asked nowhere
    · have points := pointed_eq_ok_iff.1 points
      split at fails
      · cases fails
      rename_i source asked
      split at fails
      · cases fails
      rename_i own filtered
      obtain rfl := Except.error.inj fails
      rcases Tools.filtered_eq_error_iff.1 filtered with refused | ⟨outputs, stopped, rfl⟩
      · exact .refused points asked refused
      · exact .stopped points asked stopped
  · intro spoils
    cases spoils with
    | pointer asked nowhere =>
      exact .inl (pointed_eq_error_iff.2 ⟨_, asked, nowhere, rfl⟩)
    | refused points asked fails =>
      have filtered := Tools.filtered_eq_error_iff.2 (.inl fails)
      exact .inr ⟨_, pointed_eq_ok_iff.2 points, by rw [asked]; dsimp only; rw [filtered]⟩
    | stopped points asked fails =>
      have filtered := Tools.filtered_eq_error_iff.2 (.inr ⟨_, fails, rfl⟩)
      exact .inr ⟨_, pointed_eq_ok_iff.2 points, by rw [asked]; dsimp only; rw [filtered]⟩

section Obstacles

variable (tools : Tools) (selection : Selection) (disk : Disk) (patterns : List String)

/-- A path for which one of the patterns stands. -/
def Named (path : String) : Prop :=
  ∃ text ∈ patterns, ∃ paths, StandsFor tools disk text paths ∧ path ∈ paths

/-- What is amiss with a single pattern, file, line or document of a batch. -/
inductive Obstructs : Failure → Prop
  | pattern {text : String} {fault : Glob.Fault} (given : text ∈ patterns)
      (wild : Glob.isPattern text = true) (fails : tools.expand disk text = .error fault) :
      Obstructs (.pattern fault)
  | unmatched {text : String} (given : text ∈ patterns) (wild : Glob.isPattern text = true)
      (nothing : tools.expand disk text = .ok []) : Obstructs (.unmatched text)
  | source {path : String} {error : FileError} (named : Named tools disk patterns path)
      (fails : disk.readText path = .error error) : Obstructs (.source path error)
  | malformed {path text : String} {failure : Failure} (named : Named tools disk patterns path)
      (read : disk.readText path = .ok text) (fails : selection.Malformed tools path text failure) :
      Obstructs failure
  | document {path text : String} {documents : List Json} {position : Nat} {document : Json}
      {failure : Failure} (named : Named tools disk patterns path)
      (read : disk.readText path = .ok text) (holds : selection.Holds tools text documents)
      (stands : documents[position]? = some document)
      (fails : selection.Spoils tools (selection.label path position) document failure) :
      Obstructs failure

variable {tools selection disk patterns} {failure : Failure}

/-- A batch that is not loaded fails for a reason that is there. -/
theorem obstructs_of_load (fails : selection.load tools disk patterns = .error failure) :
    Obstructs tools selection disk patterns failure := by
  rw [load_eq, bind_eq_error_iff] at fails
  rcases fails with fails | ⟨all, found, fails⟩
  · obtain ⟨text, given, reason⟩ := exists_mem_of_gather_eq_error fails
    unfold paths at reason
    split at reason
    · rename_i wild
      split at reason
      · rename_i fault expanded
        obtain rfl := Except.error.inj reason
        exact .pattern given wild expanded
      · rename_i expanded
        obtain rfl := Except.error.inj reason
        exact .unmatched given wild expanded
      · cases reason
    · cases reason
  · obtain ⟨path, held, reason⟩ := exists_mem_of_gather_eq_error fails
    have named : Named tools disk patterns path := by
      obtain ⟨parts, paired, rfl⟩ := gather_eq_ok_iff.1 found
      obtain ⟨part, among, held⟩ := List.mem_flatten.1 held
      obtain ⟨text, given, stands⟩ := Paired.exists_left paired among
      exact ⟨text, given, part, paths_eq_ok_iff.1 stands, held⟩
    cases read : disk.readText path with
    | error error =>
      rw [ofFile, read] at reason
      obtain rfl := Except.error.inj reason
      exact .source named read
    | ok text =>
      rw [ofFile_eq read, bind_eq_error_iff] at reason
      rcases reason with reason | ⟨documents, holds, reason⟩
      · exact .malformed named read (malformed_of_documents reason)
      · obtain ⟨⟨document, position⟩, among, reason⟩ := exists_mem_of_gather_eq_error reason
        have stands := List.mem_zipIdx_iff_getElem?.1 among
        exact .document named read (documents_eq_ok_iff.1 holds) stands
          (select_eq_error_iff.1 reason)

/-- A batch is not loaded when something single is amiss. -/
theorem Obstructs.exists_load (obstructs : Obstructs tools selection disk patterns failure) :
    ∃ first, selection.load tools disk patterns = .error first := by
  cases loaded : selection.load tools disk patterns with
  | error first => exact ⟨first, rfl⟩
  | ok inputs =>
    rw [load_eq, bind_eq_ok_iff] at loaded
    obtain ⟨_, found, files⟩ := loaded
    obtain ⟨parts, paired, rfl⟩ := gather_eq_ok_iff.1 found
    obtain ⟨groups, each, _⟩ := gather_eq_ok_iff.1 files
    have given {text : String} (given : text ∈ patterns) :
        ∃ found ∈ parts, paths tools disk text = .ok found := Paired.exists_right paired given
    have file {path : String} (named : Named tools disk patterns path) :
        ∃ group, selection.ofFile tools disk path = .ok group := by
      obtain ⟨text, held, others, stands, among⟩ := named
      obtain ⟨found, there, same⟩ := given held
      rw [paths_eq_ok_iff.2 stands] at same
      obtain rfl := Except.ok.inj same
      obtain ⟨group, _, read⟩ := Paired.exists_right each (List.mem_flatten.2 ⟨_, there, among⟩)
      exact ⟨group, read⟩
    cases obstructs with
    | pattern held wild fails =>
      obtain ⟨_, _, found⟩ := given held
      simp [paths, wild, fails] at found
    | unmatched held wild nothing =>
      obtain ⟨_, _, found⟩ := given held
      simp [paths, wild, nothing] at found
    | source named fails =>
      obtain ⟨_, read⟩ := file named
      simp [ofFile, fails] at read
    | malformed named read malformed =>
      obtain ⟨group, found⟩ := file named
      obtain ⟨first, fails⟩ := malformed.exists_documents
      rw [ofFile_eq read, fails] at found
      cases found
    | @document path _ documents position document _ named read holds stands spoils =>
      obtain ⟨group, found⟩ := file named
      rw [ofFile_eq read, documents_eq_ok_iff.2 holds] at found
      obtain ⟨parts, each, _⟩ := gather_eq_ok_iff.1 found
      have among : (document, position) ∈ documents.zipIdx :=
        List.mem_zipIdx_iff_getElem?.2 stands
      obtain ⟨part, _, left⟩ := Paired.exists_right each among
      rw [select_eq_error_iff.2 spoils] at left
      cases left

/-- A batch is gathered or obstructed, and not both. -/
theorem exists_gathers_iff :
    (∃ inputs, Gathers tools selection disk patterns inputs) ↔
      ¬ ∃ failure, Obstructs tools selection disk patterns failure := by
  constructor
  · rintro ⟨inputs, gathers⟩ ⟨failure, obstructs⟩
    obtain ⟨first, fails⟩ := obstructs.exists_load
    rw [load_eq_ok_iff.2 gathers] at fails
    cases fails
  · intro clear
    cases loaded : selection.load tools disk patterns with
    | error failure => exact absurd ⟨failure, obstructs_of_load loaded⟩ clear
    | ok inputs => exact ⟨inputs, load_eq_ok_iff.1 loaded⟩

end Obstacles

end Selection
end TypedTree
