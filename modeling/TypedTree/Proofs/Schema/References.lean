import Mathlib.Data.List.TakeWhile
import TypedTree.Proofs.Json.Pointer
import TypedTree.Schema.Reference

/-!
# What references name

A reference that is a pointer into one of the tables names what stands behind the table, with its
escapes undone. So the pointer that is made of an identifier by escaping it names the identifier, in
either dialect and whatever it contains, as long as it has no line feed. A reference of any other
form names its last segment, in which there is no slash.
-/

namespace TypedTree.Schema.Reference

/-! ## Last segments -/

/-- The last segment of a text has no slash. -/
theorem slash_not_mem_lastSegment (text : List Char) : '/' ∉ lastSegment text := by
  intro slash
  rw [lastSegment, List.mem_reverse] at slash
  simpa using List.mem_takeWhile_imp slash

/-- A text is its own last segment exactly when it has no slash. -/
theorem lastSegment_eq_self_iff (text : List Char) : lastSegment text = text ↔ '/' ∉ text := by
  constructor
  · intro same
    rw [← same]
    exact slash_not_mem_lastSegment text
  · intro none
    have passes : ∀ c ∈ text.reverse, (c != '/') = true := by
      intro c held
      have other : c ≠ '/' := fun same => none (same ▸ List.mem_reverse.1 held)
      simpa using other
    rw [lastSegment, List.takeWhile_eq_self_iff.2 passes, List.reverse_reverse]

/-- The last segment of a text behind a slash is that of what follows the slash. -/
theorem lastSegment_append (before text : List Char) :
    lastSegment (before ++ '/' :: text) = lastSegment text := by
  simp only [lastSegment, List.reverse_append, List.reverse_cons, List.append_assoc]
  congr 1
  rw [List.takeWhile_append]
  split
  · rename_i whole
    simpa using ((List.takeWhile_prefix _).eq_of_length whole).symm
  · rfl

/-! ## Pointers into tables -/

/-- Behind the leading characters stands the rest. -/
theorem behind?_append (leading text : List Char) :
    behind? leading (leading ++ text) = some text := by
  rw [behind?, if_pos (List.isPrefixOf_iff_prefix.2 (List.prefix_append leading text)),
    List.drop_left]

/-- What stands behind leading characters is the rest of a text that begins with them. -/
theorem eq_append_of_behind? {leading text rest : List Char}
    (behind : behind? leading text = some rest) : text = leading ++ rest := by
  unfold behind? at behind
  split at behind
  · rename_i begins
    obtain ⟨other, rfl⟩ := List.isPrefixOf_iff_prefix.1 begins
    rw [List.drop_left] at behind
    rw [Option.some.inj behind]
  · cases behind

/-- A pointer into a table names what stands behind the table. -/
theorem tableEntry?_append {table : String} (known : table ∈ tables) (entry : List Char) :
    tableEntry? (table.toList ++ entry) =
      if entry.isEmpty || entry.contains '\n' then none else some entry := by
  have found : tables.findSome? (fun table' => behind? table'.toList (table.toList ++ entry)) =
      some entry := by
    rcases List.mem_pair.1 known with rfl | rfl
    · rw [tables, List.findSome?_cons, behind?_append]
    · have other : behind? "#/definitions/".toList ("#/components/schemas/".toList ++ entry) =
          none := rfl
      rw [tables, List.findSome?_cons, other, List.findSome?_cons, behind?_append]
  unfold tableEntry?
  rw [found, Option.filter_some]
  cases entry.isEmpty <;> cases entry.contains '\n' <;> rfl

/--
A reference that is a pointer into the table of one of the dialects, with what stands behind the
table: at least one character, and no line feed.
-/
def PointsTo (reference entry : String) : Prop :=
  (reference = "#/definitions/" ++ entry ∨ reference = "#/components/schemas/" ++ entry) ∧
    entry ≠ "" ∧ '\n' ∉ entry.toList

/-- Every entry of a table is pointed to. -/
theorem pointsTo_of_found {reference : String} {entry : List Char}
    (named : tableEntry? reference.toList = some entry) :
    PointsTo reference (String.ofList entry) := by
  obtain ⟨found, proper⟩ := Option.filter_eq_some_iff.1 named
  obtain ⟨table, known, behind⟩ := List.exists_of_findSome?_eq_some found
  have spelled : reference = table ++ String.ofList entry := by
    rw [← String.toList_inj, String.toList_append, String.toList_ofList]
    exact eq_append_of_behind? behind
  refine ⟨?_, ?_, ?_⟩
  · rcases List.mem_pair.1 known with rfl | rfl
    · exact .inl spelled
    · exact .inr spelled
  · rw [Ne, ← String.toList_inj, String.toList_ofList]
    rintro rfl
    simp at proper
  · rw [String.toList_ofList]
    intro feed
    simp [feed] at proper

/-- A reference that points to no entry names its last segment. -/
theorem target_of_not_pointsTo {reference : String}
    (none : ∀ entry, ¬ PointsTo reference entry) :
    target reference = String.ofList (lastSegment reference.toList) := by
  unfold target
  split
  · rename_i entry named
    exact absurd (pointsTo_of_found named) (none _)
  · rfl

/-! ## Escaped identifiers -/

/-- An identifier as it stands in a pointer: `~0` for every tilde, `~1` for every slash. -/
def escaped (id : String) : String := String.ofList (Json.Pointer.escape id.toList)

/-- The pointer into a table that is made of an identifier by escaping it names the identifier. -/
theorem target_escaped {table id : String} (known : table ∈ tables) (flat : '\n' ∉ id.toList) :
    target (table ++ escaped id) = id := by
  rw [target, escaped, String.toList_append, String.toList_ofList, tableEntry?_append known,
    ← String.toList_inj, String.toList_ofList]
  have still : '\n' ∉ Json.Pointer.escape id.toList :=
    fun feed => flat ((Json.Pointer.mem_escape_iff (by decide)).1 feed)
  by_cases empty : id.toList = []
  · rw [empty]
    rcases List.mem_pair.1 known with rfl | rfl <;> rfl
  · have proper : ¬ ((Json.Pointer.escape id.toList).isEmpty ||
        (Json.Pointer.escape id.toList).contains '\n') = true := by
      simp [still, Json.Pointer.escape_eq_nil_iff, empty]
    rw [if_neg proper]
    exact Json.Pointer.unescape_escape id.toList

/--
The pointer into a table of either dialect that is made of an identifier by escaping it names the
identifier, whatever it contains except for a line feed; and a reference that is no pointer into one
of the tables names something without a slash.
-/
theorem target_undoes_escape :
    (∀ id : String, '\n' ∉ id.toList →
      target ("#/definitions/" ++ escaped id) = id ∧
        target ("#/components/schemas/" ++ escaped id) = id) ∧
    ∀ reference : String, (∀ entry, ¬ PointsTo reference entry) →
      '/' ∉ (target reference).toList := by
  refine ⟨fun id flat => ⟨?_, ?_⟩, fun reference none => ?_⟩
  · exact target_escaped (by simp [tables]) flat
  · exact target_escaped (by simp [tables]) flat
  · rw [target_of_not_pointsTo none, String.toList_ofList]
    exact slash_not_mem_lastSegment _

/-- An identifier with both characters and with what they are written as, and other references. -/
theorem tilded_name_undone :
    target "#/definitions/~01~1~0~00~1definitions~1" = "~1/~~0/definitions/" ∧
      target "#/components/schemas/~01~1~0~00~1definitions~1" = "~1/~~0/definitions/" ∧
      '/' ∉ (target "other.json#/definitions/Thing").toList := by
  have spelled : escaped "~1/~~0/definitions/" = "~01~1~0~00~1definitions~1" := by decide
  have both := target_undoes_escape.1 "~1/~~0/definitions/" (by decide)
  rw [spelled] at both
  refine ⟨both.1, both.2, target_undoes_escape.2 _ ?_⟩
  rintro entry ⟨begins | begins, -⟩
  all_goals
    have first := congrArg (fun text => text.toList.head?) begins
    simp at first

end TypedTree.Schema.Reference
