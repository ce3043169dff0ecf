import Mathlib
import TypedTree.Command.Run
import TypedTree.Proofs.Command.Loading
import TypedTree.Proofs.Files.Readback

/-!
# What a command reports

A command that converts documents shows either what came of every document that can be converted, in
order, or nothing: nothing if the definition has no shape, or anything of the batch is amiss. A
document that cannot be converted is counted and takes nothing from the others. The command fails
for such documents, and for output that the disk does not take.
-/

namespace TypedTree

/-! ## Output -/

/-- Whether a disk takes output, which is printed, or written to a file whose directory is made. -/
def Disk.Takes (disk : Disk) : Option String → Prop
  | none => True
  | some path => ∃ made written, disk.makePath (parentPath path) = .ok made ∧
      made.write path [] = .ok written

/-- Whether a file can be written is not a matter of its bytes. -/
theorem Disk.exists_write {disk written : Disk} {path : String} {bytes : List UInt8}
    (done : disk.write path bytes = .ok written) (others : List UInt8) :
    ∃ also, disk.write path others = .ok also := by
  simp only [write] at done ⊢
  split at done
  · cases done
  rename_i nonempty
  rw [if_neg nonempty]
  split at done
  · cases done
  split at done
  · cases done
  rename_i unclosed
  rw [if_neg unclosed]
  split at done
  · split at done
    · cases done
    rename_i file
    exact ⟨_, if_neg file⟩
  · exact ⟨_, rfl⟩
  · cases done

namespace Report

/-- A report prints contents as a line of their own, or leaves a disk with them in a file. -/
def Carries (report : Report) (disk : Disk) (contents : String) : Option String → Prop
  | none => report.stdout = contents ++ "\n" ∧ report.disk = disk
  | some path => report.stdout = "" ∧ report.disk.read path = .ok contents.toUTF8.toList ∧
      ∃ made, disk.makePath (parentPath path) = .ok made ∧
        made.write path contents.toUTF8.toList = .ok report.disk

/-- What a report carries is a matter of what it prints and of the disk that it leaves. -/
theorem Carries.of_eq {report other : Report} {disk : Disk} {contents : String}
    {out : Option String} (carries : other.Carries disk contents out)
    (stdout : report.stdout = other.stdout) (left : report.disk = other.disk) :
    report.Carries disk contents out := by
  cases out <;> simpa only [Carries, stdout, left] using carries

end Report

section Delivery

variable {disk : Disk} {out : Option String} (contents : String)

/-- Output that the disk takes is delivered. -/
theorem deliver_of_takes (takes : disk.Takes out) :
    (deliver disk out contents).failure = none ∧
      (deliver disk out contents).Carries disk contents out := by
  cases out with
  | none => exact ⟨rfl, rfl, rfl⟩
  | some path =>
    obtain ⟨made, _, directory, possible⟩ := takes
    obtain ⟨written, done⟩ := Disk.exists_write possible contents.toUTF8.toList
    rw [deliver, directory]
    dsimp only
    rw [done]
    exact ⟨rfl, rfl, Disk.read_write done, made, directory, done⟩

/-- Output that the disk does not take is a failure, and is not printed. -/
theorem deliver_of_not_takes (refuses : ¬ disk.Takes out) :
    (deliver disk out contents).stdout = "" ∧
      ∃ failure, (deliver disk out contents).failure = some failure := by
  cases out with
  | none => exact absurd trivial refuses
  | some path =>
    unfold deliver
    dsimp only
    split
    · exact ⟨rfl, _, rfl⟩
    rename_i made directory
    split
    · exact ⟨rfl, _, rfl⟩
    rename_i written done
    obtain ⟨also, possible⟩ := Disk.exists_write done []
    exact absurd ⟨made, also, directory, possible⟩ refuses

end Delivery

/-! ## Results -/

/-- The results of inputs, each of which is converted on its own. -/
def Mode.results (mode : Mode) (shape : Shape) (inputs : List Input) :
    List (Except ConvertError Json) :=
  inputs.map fun input => mode.convert shape input.document

/-- The text that shows the results that are documents, with a line break between each two. -/
def Results.shown (results : List (Except ConvertError Json)) : String :=
  "\n".intercalate ((results.filterMap Except.toOption).map Json.pretty)

/-- The number of results that are no documents. -/
def Results.failed (results : List (Except ConvertError Json)) : Nat :=
  results.countP fun result => result.toOption.isNone

section Batch

variable {mode : Mode} {shape : Shape} {inputs : List Input}

/-- The documents that are shown of conversions are those of the results. -/
theorem shown_conversions :
    "\n".intercalate ((inputs.map (Conversion.ofInput mode shape)).filterMap Conversion.shown?) =
      Results.shown (mode.results shape inputs) := by
  rw [Results.shown, Mode.results, List.filterMap_map, List.filterMap_map, List.map_filterMap]
  congr 2
  funext input
  simp only [Function.comp_apply, Conversion.ofInput, Conversion.shown?]
  cases mode.convert shape input.document <;> rfl

/-- The conversions that failed are those of the other results. -/
theorem failed_conversions :
    (inputs.map (Conversion.ofInput mode shape)).countP Conversion.failed =
      Results.failed (mode.results shape inputs) := by
  rw [Results.failed, Mode.results, List.countP_map, List.countP_map]
  congr 1
  funext input
  simp only [Function.comp_apply, Conversion.failed, Conversion.ofInput, Conversion.shown?]
  cases mode.convert shape input.document <;> rfl

/-- No result fails when each is a document. -/
theorem failed_eq_zero_iff {results : List (Except ConvertError Json)} :
    Results.failed results = 0 ↔ ∀ result ∈ results, ∃ document, result = .ok document := by
  rw [Results.failed, List.countP_eq_zero]
  refine forall₂_congr fun result _ => ?_
  cases result <;> simp [Except.toOption]

variable {disk : Disk} {coloured : Bool} {out : Option String}

/-- The report on a batch whose output is taken carries what is shown, and counts what failed. -/
theorem reportBatch_of_takes (takes : disk.Takes out) :
    let report := reportBatch disk coloured out (inputs.map (Conversion.ofInput mode shape))
    let results := mode.results shape inputs
    report.Carries disk (Results.shown results) out ∧
      report.failure = if Results.failed results = 0 then none
        else some (.conversion (Results.failed results) results.length) := by
  intro report results
  obtain ⟨delivered, carries⟩ := deliver_of_takes (Results.shown results) takes
  have length : results.length = inputs.length := List.length_map _
  simp only [report, reportBatch, shown_conversions, failed_conversions, List.length_map]
  exact ⟨carries.of_eq rfl rfl, by rw [delivered, Option.none_or, length]⟩

/-- The report on a batch whose output is not taken prints nothing, and fails for that. -/
theorem reportBatch_of_not_takes (refuses : ¬ disk.Takes out) :
    let report := reportBatch disk coloured out (inputs.map (Conversion.ofInput mode shape))
    report.stdout = "" ∧ ∃ failure, report.failure = some failure := by
  intro report
  simp only [report, reportBatch]
  obtain ⟨silent, failure, refused⟩ := deliver_of_not_takes _ refuses
  exact ⟨silent, failure, by rw [refused, Option.some_or]⟩

/-- A failure for results says how many of how many are no documents. -/
theorem text_conversion (failed total : Nat) :
    (Failure.conversion failed total).text =
      toString failed ++ " of " ++ toString total ++ " documents failed to convert" := by
  simp only [Failure.text, Failure.causes, List.map_cons, List.map_nil, Failure.Cause.text]
  rfl

end Batch

/-! ## Reports -/

section Convert

variable (tools : Tools) (disk : Disk) (coloured : Bool) (lookup : Lookup) (patterns : List String)
variable (selection : Selection) (mode : Mode) (out : Option String)

/-- The report of a command that converts documents. -/
def convertReport : Report :=
  (Command.convert lookup patterns selection mode out).runWith tools disk coloured

variable {tools disk coloured lookup patterns selection mode out}

/-- With a shape and a batch, a command reports on the conversions. -/
theorem convertReport_of_gathers {shape : Shape} {inputs : List Input}
    (resolved : lookup.shape tools disk = .ok shape)
    (gathers : selection.Gathers tools disk patterns inputs) :
    convertReport tools disk coloured lookup patterns selection mode out =
      reportBatch disk coloured out (inputs.map (Conversion.ofInput mode shape)) := by
  simp only [convertReport, Command.runWith, resolved, Selection.load_eq_ok_iff.2 gathers]

/-- A command that has no shape or no batch reports why, and nothing else. -/
theorem convertReport_of_failure {failure : Failure}
    (fails : lookup.shape tools disk = .error failure ∨
      Selection.Obstructs tools selection disk patterns failure) :
    ∃ first, convertReport tools disk coloured lookup patterns selection mode out =
        { failure := some first, disk } ∧
      (lookup.shape tools disk = .error first ∨
        Selection.Obstructs tools selection disk patterns first) := by
  cases resolved : lookup.shape tools disk with
  | error first =>
    exact ⟨first, by simp only [convertReport, Command.runWith, resolved], .inl rfl⟩
  | ok shape =>
    have obstructs := fails.resolve_left (by simp [resolved])
    obtain ⟨first, loaded⟩ := obstructs.exists_load
    exact ⟨first, by simp only [convertReport, Command.runWith, resolved, loaded],
      .inr (Selection.obstructs_of_load loaded)⟩

variable (tools disk coloured lookup patterns selection mode out)

/--
What a command that converts documents reports. Either the batch is gathered or something single
obstructs it. With a shape and a batch, the results that are documents are shown in order, if the
disk takes the output; the command fails exactly for output that the disk does not take and for
results that are no documents, and then it says how many of how many. Without a shape or a batch
nothing is printed or written, and the command fails for a reason that is there.
-/
theorem convert_all_or_nothing :
    ((∃ inputs, Selection.Gathers tools selection disk patterns inputs) ↔
      ¬ ∃ failure, Selection.Obstructs tools selection disk patterns failure) ∧
    ∃ report, convertReport tools disk coloured lookup patterns selection mode out = report ∧
      (∀ shape inputs results, lookup.shape tools disk = .ok shape →
        Selection.Gathers tools selection disk patterns inputs →
        mode.results shape inputs = results →
        (report.failure = none ↔
          disk.Takes out ∧ ∀ result ∈ results, ∃ document, result = .ok document) ∧
        (disk.Takes out → report.Carries disk (Results.shown results) out ∧
          ∀ failure, report.failure = some failure →
            failure = .conversion (Results.failed results) results.length ∧
            failure.text = toString (Results.failed results) ++ " of " ++
              toString results.length ++ " documents failed to convert") ∧
        (¬ disk.Takes out → report.stdout = "")) ∧
      ∀ failure, lookup.shape tools disk = .error failure ∨
          Selection.Obstructs tools selection disk patterns failure →
        report.stdout = "" ∧ report.stderr = "" ∧ report.disk = disk ∧
          ∃ first, report.failure = some first ∧
            (lookup.shape tools disk = .error first ∨
              Selection.Obstructs tools selection disk patterns first) := by
  refine ⟨Selection.exists_gathers_iff, _, rfl,
    fun shape inputs results resolved gathers same => ?_, fun failure fails => ?_⟩
  · subst same
    rw [convertReport_of_gathers resolved gathers]
    by_cases takes : disk.Takes out
    · obtain ⟨carries, failure⟩ := reportBatch_of_takes takes
      rw [failure, ← failed_eq_zero_iff]
      refine ⟨by simp [takes], fun _ => ⟨carries, fun failure failed => ?_⟩, absurd takes⟩
      split at failed
      · cases failed
      · obtain rfl := Option.some.inj failed
        exact ⟨rfl, text_conversion _ _⟩
    · obtain ⟨silent, failure, refused⟩ := reportBatch_of_not_takes takes
      exact ⟨by simp [refused, takes], fun able => absurd able takes, fun _ => silent⟩
  · obtain ⟨first, whole, reason⟩ :
        ∃ first, convertReport tools disk coloured lookup patterns selection mode out =
          { failure := some first, disk } ∧ _ := convertReport_of_failure fails
    rw [whole]
    exact ⟨rfl, rfl, rfl, first, rfl, reason⟩

end Convert

/-! ## A batch on a small disk -/

/-- A disk with the definition of a name as a text, a file of names, one of which is none, and a
file of a single name. -/
def nameDisk : Disk :=
  .ofFiles [("schema.json",
      "\x7b\"definitions\":\x7b\"Name\":\x7b\"type\":\"string\"\x7d\x7d\x7d".toUTF8.toList),
    ("names.json", "\"x\"\n\n7\n\"y\"\n".toUTF8.toList), ("name.json", "\"x\"".toUTF8.toList)]

/-- The lookup of the definition of a name. -/
def nameLookup : Lookup := ⟨"schema.json", .definition "Name", Schema.defaultBudget⟩

/-- A name is a text. -/
theorem shape_nameLookup : nameLookup.shape .own nameDisk = .ok .string := by cbv

/-- The inputs of the file of a single name. -/
def singleName : List Input := [⟨"name.json", .text "x"⟩]

/-- The inputs of the file of names. -/
def severalNames : List Input :=
  [⟨"names.json#0", .text "x"⟩, ⟨"names.json#1", .number (.int 7)⟩, ⟨"names.json#2", .text "y"⟩]

/-- A single name is gathered from its file. -/
theorem gathers_singleName : Selection.Gathers .own {} nameDisk ["name.json"] singleName := by
  have stands : Selection.StandsFor .own nameDisk "name.json" ["name.json"] := by
    rw [Selection.StandsFor, if_neg (by decide +kernel)]
  have read : nameDisk.readText "name.json" = .ok "\"x\"" := by decide +kernel
  have holds : Selection.Holds .own {} "\"x\"" [.text "x"] := ⟨.text "x", by cbv, rfl⟩
  have leaves : Selection.Leaves .own {} "name.json" (.text "x") singleName := ⟨_, rfl, rfl⟩
  have gives : Selection.FileGives .own {} nameDisk "name.json" singleName :=
    ⟨_, _, [singleName], read, holds, .cons leaves .nil, rfl⟩
  exact ⟨[["name.json"]], [singleName], .cons stands .nil, .cons gives .nil, rfl⟩

/-- Names are gathered from the lines of their file. -/
theorem gathers_severalNames :
    Selection.Gathers .own { linewise := true } nameDisk ["names.json"] severalNames := by
  have stands : Selection.StandsFor .own nameDisk "names.json" ["names.json"] := by
    rw [Selection.StandsFor, if_neg (by decide +kernel)]
  have read : nameDisk.readText "names.json" = .ok "\"x\"\n\n7\n\"y\"\n" := by decide +kernel
  have lines : (Text.lines "\"x\"\n\n7\n\"y\"\n".toList).filter
      (fun line => !line.all Text.isBlank) = ["\"x\"".toList, ['7'], "\"y\"".toList] := by
    decide +kernel
  have holds : Selection.Holds .own { linewise := true } "\"x\"\n\n7\n\"y\"\n"
      (severalNames.map Input.document) := by
    rw [Selection.Holds, if_pos rfl, lines]
    exact .cons (by cbv) (.cons (by cbv) (.cons (by cbv) .nil))
  have leaves (label : String) (document : Json) : Selection.Leaves .own { linewise := true }
      label document [⟨label, document⟩] := ⟨_, rfl, rfl⟩
  have gives : Selection.FileGives .own { linewise := true } nameDisk "names.json" severalNames :=
    ⟨_, _, severalNames.map fun input => [input], read, holds,
      .cons (leaves _ _) (.cons (leaves _ _) (.cons (leaves _ _) .nil)), rfl⟩
  exact ⟨[["names.json"]], [severalNames], .cons stands .nil, .cons gives .nil, rfl⟩

/-- No file can be written below another one. -/
theorem nameDisk_refuses : ¬ nameDisk.Takes (some "name.json/out") := by
  rintro ⟨made, _, directory, _⟩
  have absent : (nameDisk.makePath (parentPath "name.json/out")).toOption.isNone = true := by
    decide +kernel
  rw [directory] at absent
  cases absent

/--
A command may fail although every document of its batch is converted: where the file of the output
would stand below another file, there is nowhere to write it.
-/
theorem converted_batch_fails_for_output :
    ¬ ∀ (disk : Disk) (lookup : Lookup) (patterns : List String) (selection : Selection)
        (mode : Mode) (out : Option String) (shape : Shape) (inputs : List Input),
      lookup.shape .own disk = .ok shape → Selection.Gathers .own selection disk patterns inputs →
      ((convertReport .own disk false lookup patterns selection mode out).failure = none ↔
        ∀ result ∈ mode.results shape inputs, ∃ document, result = .ok document) := by
  intro always
  have converted : ∀ result ∈ Mode.results .wire .string singleName,
      ∃ document, result = .ok document := failed_eq_zero_iff.1 (by cbv)
  have fine := (always nameDisk nameLookup ["name.json"] {} .wire (some "name.json/out") .string
    singleName shape_nameLookup gathers_singleName).2 converted
  obtain ⟨_, failure, refused⟩ := reportBatch_of_not_takes nameDisk_refuses
  rw [convertReport_of_gathers shape_nameLookup gathers_singleName, refused] at fine
  cases fine

/-- The report on the conversion of the names on the lines of some files. -/
def namesReport (patterns : List String) (out : Option String) : Report :=
  convertReport .own nameDisk false nameLookup patterns { linewise := true } .wire out

/--
Of three names two are shown, and the command says that one failed. With a file behind them that is
not there, or an output file below another file, nothing is shown.
-/
theorem names_shown_or_nothing :
    (namesReport ["names.json"] none).stdout =
        Results.shown (Mode.results .wire .string severalNames) ++ "\n" ∧
      (namesReport ["names.json"] none).failure ≠ none ∧
      (∀ failure, (namesReport ["names.json"] none).failure = some failure →
        failure.text = "1 of 3 documents failed to convert") ∧
      (namesReport ["names.json"] (some "name.json/out")).stdout = "" ∧
      (namesReport ["names.json", "lost.json"] none).stdout = "" := by
  have all (patterns : List String) (out : Option String) :=
    (convert_all_or_nothing .own nameDisk false nameLookup patterns { linewise := true } .wire
      out).2
  have counted : Results.failed (Mode.results .wire .string severalNames) = 1 := by cbv
  obtain ⟨_, rfl, shown, _⟩ := all ["names.json"] none
  obtain ⟨_, rfl, refused, _⟩ := all ["names.json"] (some "name.json/out")
  obtain ⟨_, rfl, _, silent⟩ := all ["names.json", "lost.json"] none
  obtain ⟨fine, taken, _⟩ :=
    shown .string severalNames _ shape_nameLookup gathers_severalNames rfl
  obtain ⟨carries, fails⟩ := taken trivial
  refine ⟨carries.1, fun none => ?_, fun failure failed => ?_, ?_, ?_⟩
  · have converted := failed_eq_zero_iff.2 (fine.1 none).2
    rw [counted] at converted
    cases converted
  · rw [(fails failure failed).2, counted]
    rfl
  · exact (refused .string severalNames _ shape_nameLookup gathers_severalNames rfl).2.2
      nameDisk_refuses
  · have stands : Selection.StandsFor .own nameDisk "lost.json" ["lost.json"] := by
      rw [Selection.StandsFor, if_neg (by decide +kernel)]
    have missing : nameDisk.readText "lost.json" = .error .notFound := by decide +kernel
    exact (silent (.source "lost.json" .notFound)
      (.inr (.source ⟨"lost.json", by simp, _, stands, by simp⟩ missing))).1

end TypedTree
