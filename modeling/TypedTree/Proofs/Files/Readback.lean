import TypedTree.Files.Disk
import TypedTree.Proofs.Entries

/-!
# Files are read back

A path is followed part by part, and what stands at the end is known by the names that lead there.
To put a file at the end of some names keeps every directory, unless that file takes the place of
one. So a path that led to the directory of a file still leads there when the file is written, and
one part further the file is found with its bytes.
-/

namespace TypedTree

/-! ## Nodes under names -/

namespace FileNode

/-- The node to which names lead. -/
def at? : List String → FileNode → Option FileNode
  | [], node => some node
  | name :: rest, node => (Entries.get? node.entries name).bind (at? rest)

/-- Names lead further from where others lead. -/
theorem at?_append (names further : List String) (node : FileNode) :
    at? (names ++ further) node = (at? names node).bind (at? further) := by
  induction names generalizing node with
  | nil => rfl
  | cons name rest ih =>
    simp only [List.cons_append, at?, Option.bind_assoc]
    exact congrArg _ (funext ih)

/-- The entries of a directory are those of which it is made. -/
@[simp]
theorem entries_directory (held : List (String × FileNode)) : (directory held).entries = held := rfl

/-- An entered node is found under its name, and under other names what was there before. -/
theorem get?_enter (name other : String) (node : FileNode) (entries : List (String × FileNode)) :
    Entries.get? (enter name node entries) other =
      if name = other then some node else Entries.get? entries other := by
  induction entries with
  | nil => simp [enter, Entries.get?]
  | cons entry rest ih =>
    obtain ⟨key, present⟩ := entry
    unfold enter
    by_cases same : name = key
    · subst same
      by_cases hit : name = other <;> simp [Entries.get?, hit]
    · rw [if_neg same]
      split
      · simp [Entries.get?]
      · by_cases hit : key = other
        · subst hit
          simp [Entries.get?, same]
        · simp [Entries.get?, hit, ih]

/-- A node that is put at the end of names is found there. -/
theorem at?_put (names : List String) (tree node : FileNode) :
    at? names (put names tree node) = some node := by
  induction names generalizing tree with
  | nil => rfl
  | cons name rest ih => simp [put, at?, get?_enter, ih]

/-- Where a directory stood, one still stands, unless the names of another node lead there. -/
theorem isDirectory_at?_put {names others : List String} {tree node there : FileNode}
    (found : at? others tree = some there) (directory : there.isDirectory = true)
    (apart : ¬ names <+: others) :
    ∃ still, at? others (put names tree node) = some still ∧ still.isDirectory = true := by
  induction names generalizing tree others with
  | nil => exact absurd List.nil_prefix apart
  | cons name rest ih =>
    cases others with
    | nil => exact ⟨_, rfl, rfl⟩
    | cons other further =>
      simp only [put, at?, entries_directory, get?_enter]
      by_cases same : name = other
      · subst same
        obtain ⟨below, entered, beyond⟩ := Option.bind_eq_some_iff.1 found
        rw [if_pos rfl, entered, Option.bind_some, Option.getD_some]
        exact ih beyond fun within => apart (List.cons_prefix_cons.2 ⟨rfl, within⟩)
      · rw [if_neg same]
        exact ⟨there, found, directory⟩

/-- A node that has an entry is a directory. -/
theorem isDirectory_of_get? {node below : FileNode} {name : String}
    (entered : Entries.get? node.entries name = some below) : node.isDirectory = true := by
  cases node with
  | file bytes => cases entered
  | directory _ => rfl

/-- Where a directory stands in the one tree, one stands in the other. -/
def KeepsDirectories (tree other : FileNode) : Prop :=
  ∀ names there, tree.at? names = some there → there.isDirectory = true →
    ∃ still, other.at? names = some still ∧ still.isDirectory = true

/-- A node that does not take the place of a directory can be put into a tree without harm. -/
theorem keepsDirectories_put {names : List String} {tree node : FileNode}
    (free : ∀ there, tree.at? names = some there → there.isDirectory = false) :
    tree.KeepsDirectories (put names tree node) := by
  intro others there found directory
  refine isDirectory_at?_put found directory ?_
  rintro ⟨further, rfl⟩
  rw [at?_append] at found
  obtain ⟨target, met, beyond⟩ := Option.bind_eq_some_iff.1 found
  have file := free target met
  cases further with
  | nil =>
    obtain rfl := Option.some.inj beyond
    rw [file] at directory
    cases directory
  | cons next rest =>
    obtain ⟨_, entered, _⟩ := Option.bind_eq_some_iff.1 beyond
    rw [isDirectory_of_get? entered] at file
    cases file

end FileNode

/-! ## Places in a tree -/

namespace FilePlace

/-- A place in a tree, reached from the root by way of the entries. -/
inductive Within (tree : FileNode) : FilePlace → Prop
  | root : Within tree (root tree)
  | entry {place : FilePlace} {name : String} {node : FileNode} (before : Within tree place)
      (entered : Entries.get? place.node.entries name = some node) :
      Within tree ⟨name :: place.names, node, place.node :: place.above⟩

/-- The names of a place lead to its node. -/
theorem Within.at? {tree : FileNode} {place : FilePlace} (within : Within tree place) :
    tree.at? place.names.reverse = some place.node := by
  induction within with
  | root => rfl
  | entry _ entered ih => simp [FileNode.at?_append, ih, FileNode.at?, entered]

/-- Whether a part is the name of an entry, rather than one that stays or goes back. -/
def IsName (part : String) : Prop := ¬ (part = "" ∨ part = ".") ∧ part ≠ ".."

/-- The names behind a part. -/
def namesBehind (names : List String) (part : String) : List String :=
  if part = "" ∨ part = "." then names else if part = ".." then names.tail else part :: names

/-- One part further, the place is in the tree, and its names follow from the part. -/
theorem Within.step {tree : FileNode} {place next : FilePlace} {part : String}
    (within : Within tree place) (done : place.step part = .ok next) :
    place.node.isDirectory = true ∧ Within tree next ∧
      next.names = namesBehind place.names part := by
  unfold FilePlace.step at done
  split at done
  · cases done
  rename_i directory
  refine ⟨by simpa using directory, ?_⟩
  split at done
  · rename_i stays
    obtain rfl := Except.ok.inj done
    exact ⟨within, by rw [namesBehind, if_pos stays]⟩
  rename_i leaves
  rw [namesBehind, if_neg leaves]
  split at done
  · rename_i back
    rw [if_pos back]
    cases within with
    | root =>
      obtain rfl := Except.ok.inj done
      exact ⟨.root, rfl⟩
    | entry before entered =>
      obtain rfl := Except.ok.inj done
      exact ⟨before, rfl⟩
  · rename_i forth
    rw [if_neg forth]
    split at done
    · rename_i node entered
      obtain rfl := Except.ok.inj done
      exact ⟨within.entry entered, rfl⟩
    · cases done

/-- A part that is not the name of an entry leads to a directory. -/
theorem Within.isDirectory_of_step {tree : FileNode} {place next : FilePlace} {part : String}
    (within : Within tree place) (done : place.step part = .ok next) (other : ¬ IsName part) :
    next.node.isDirectory = true := by
  have left := (within.step done).1
  rw [FilePlace.step, if_neg (by simp [left])] at done
  split at done
  · obtain rfl := Except.ok.inj done
    exact left
  rename_i leaves
  have back : part = ".." := by
    by_contra forth
    exact other ⟨leaves, forth⟩
  rw [if_pos back] at done
  cases within with
  | root =>
    obtain rfl := Except.ok.inj done
    exact left
  | entry _ entered =>
    obtain rfl := Except.ok.inj done
    exact FileNode.isDirectory_of_get? entered

/-- What is not found is a name that a directory has no entry of. -/
theorem Within.of_step_notFound {tree : FileNode} {place : FilePlace} {part : String}
    (within : Within tree place) (missing : place.step part = .error .notFound) :
    place.node.isDirectory = true ∧ IsName part ∧
      tree.at? (part :: place.names).reverse = none := by
  unfold FilePlace.step at missing
  split at missing
  · cases missing
  rename_i directory
  split at missing
  · cases missing
  rename_i leaves
  split at missing
  · split at missing <;> cases missing
  rename_i forth
  split at missing
  · cases missing
  rename_i absent
  refine ⟨by simpa using directory, ⟨leaves, forth⟩, ?_⟩
  simp [FileNode.at?_append, within.at?, FileNode.at?, absent]

/-- A directory is left by every part whose names lead somewhere. -/
theorem Within.exists_step {tree : FileNode} {place : FilePlace} {part : String}
    (within : Within tree place) (directory : place.node.isDirectory = true)
    (leads : IsName part → (tree.at? (part :: place.names).reverse).isSome) :
    ∃ next, place.step part = .ok next := by
  unfold FilePlace.step
  rw [if_neg (by simp [directory])]
  split
  · exact ⟨_, rfl⟩
  rename_i leaves
  split
  · split <;> exact ⟨_, rfl⟩
  · rename_i forth
    have there := leads ⟨leaves, forth⟩
    rw [List.reverse_cons, FileNode.at?_append, within.at?, Option.bind_some] at there
    split
    · exact ⟨_, rfl⟩
    · rename_i absent
      simp [FileNode.at?, absent] at there

/-- A path is followed part by part. -/
theorem follow_cons (place : FilePlace) (part : String) (rest : List String) :
    place.follow (part :: rest) = (place.step part).bind (·.follow rest) := by
  rw [follow, List.foldlM_cons]
  rfl

/-- A path and a part behind it. -/
theorem follow_append (place : FilePlace) (parts further : List String) :
    place.follow (parts ++ further) = (place.follow parts).bind (·.follow further) := by
  rw [follow, List.foldlM_append]
  rfl

/-- A path that leads to a directory leads through directories only. -/
theorem isDirectory_of_follow {place last : FilePlace} {parts : List String}
    (done : place.follow parts = .ok last) (directory : last.node.isDirectory = true) :
    place.node.isDirectory = true := by
  cases parts with
  | nil =>
    obtain rfl := Except.ok.inj done
    exact directory
  | cons part rest =>
    by_contra file
    rw [follow_cons, step, if_pos (by simpa using file)] at done
    cases done

/-- The place at the end of a path is in the tree. -/
theorem Within.follow {tree : FileNode} {place last : FilePlace} {parts : List String}
    (within : Within tree place) (done : place.follow parts = .ok last) : Within tree last := by
  induction parts generalizing place with
  | nil =>
    obtain rfl := Except.ok.inj done
    exact within
  | cons part rest ih =>
    rw [follow_cons] at done
    cases step : place.step part with
    | error fault => simp [step, Except.bind] at done
    | ok next =>
      rw [step] at done
      exact ih (within.step step).2.1 done

section Kept

variable {tree other : FileNode} {place here : FilePlace}

/-- The place of the same names as a directory is a directory in a tree that keeps these. -/
theorem Within.isDirectory_of_names (kept : tree.KeepsDirectories other)
    (within : Within tree place) (withinOther : Within other here)
    (same : here.names = place.names) (directory : place.node.isDirectory = true) :
    here.node.isDirectory = true := by
  obtain ⟨still, found, isDirectory⟩ := kept _ _ within.at? directory
  rw [← same, withinOther.at?] at found
  rwa [Option.some.inj found]

/-- In a tree that keeps directories, a path to one still leads to the directory of its names. -/
theorem Within.exists_follow (kept : tree.KeepsDirectories other) {parts : List String}
    {last : FilePlace} (within : Within tree place) (withinOther : Within other here)
    (same : here.names = place.names) (done : place.follow parts = .ok last)
    (directory : last.node.isDirectory = true) :
    ∃ found, here.follow parts = .ok found ∧ found.names = last.names := by
  induction parts generalizing place here with
  | nil =>
    obtain rfl := Except.ok.inj done
    exact ⟨here, rfl, same⟩
  | cons part rest ih =>
    rw [follow_cons] at done
    cases step : place.step part with
    | error fault => simp [step, Except.bind] at done
    | ok next =>
      rw [step] at done
      obtain ⟨left, withinNext, names⟩ := within.step step
      have leads : IsName part → (other.at? (part :: here.names).reverse).isSome := by
        intro name
        rw [namesBehind, if_neg name.1, if_neg name.2] at names
        obtain ⟨still, found, _⟩ := kept _ _ withinNext.at? (isDirectory_of_follow done directory)
        rw [same, ← names, found]
        rfl
      have leftOther := within.isDirectory_of_names kept withinOther same left
      obtain ⟨nextOther, stepOther⟩ := withinOther.exists_step leftOther leads
      obtain ⟨_, withinNextOther, namesOther⟩ := withinOther.step stepOther
      rw [follow_cons, stepOther]
      exact ih withinNext withinNextOther (by rw [namesOther, names, same]) done

end Kept

end FilePlace

/-! ## Parts of a path -/

/-- The last part of a text that does not end with a slash is not empty. -/
theorem Json.Pointer.exists_last_segment {text : List Char} (nonempty : text ≠ [])
    (unclosed : text.getLast? ≠ some '/') :
    ∃ front last, segments text = front ++ [last] ∧ last ≠ [] := by
  induction text with
  | nil => exact absurd rfl nonempty
  | cons c rest ih =>
    by_cases single : rest = []
    · subst single
      have other : c ≠ '/' := fun same => unclosed (by rw [same]; rfl)
      exact ⟨[], [c], by simp [segments, other], by simp⟩
    · have further : rest.getLast? ≠ some '/' := by
        rwa [List.getLast?_cons_of_ne_nil single] at unclosed
      obtain ⟨front, last, split, filled⟩ := ih single further
      rw [segments, split]
      split
      · exact ⟨[] :: front, last, rfl, filled⟩
      · cases front with
        | nil => exact ⟨[], c :: last, rfl, by simp⟩
        | cons first others => exact ⟨(c :: first) :: others, last, rfl, filled⟩

/-- The last part of a path that does not end with a slash is not empty. -/
theorem exists_last_pathPart {path : String} (nonempty : path ≠ "")
    (unclosed : path.endsWith "/" = false) :
    ∃ front last, pathParts path = front ++ [last] ∧ last ≠ "" := by
  have other : path.toList.getLast? ≠ some '/' := by
    intro closed
    obtain ⟨front, whole⟩ := List.getLast?_eq_some_iff.1 closed
    have ends : path.endsWith "/" = true := by
      rw [String.endsWith_eq_endsWith_toSlice, String.Slice.endsWith_string_iff]
      exact ⟨front, by simp [whole]⟩
    rw [unclosed] at ends
    cases ends
  have filled : path.toList ≠ [] := by simpa using nonempty
  obtain ⟨front, last, split, nonempty⟩ := Json.Pointer.exists_last_segment filled other
  refine ⟨front.map String.ofList, String.ofList last, by simp [pathParts, split], ?_⟩
  simpa [← String.toList_inj] using nonempty

namespace Disk

open FilePlace

/--
To write a file is to put it behind the names of a directory to which the parts before the last one
lead, where no directory stands.
-/
theorem exists_of_write {disk written : Disk} {path : String} {bytes : List UInt8}
    (done : disk.write path bytes = .ok written) :
    path ≠ "" ∧ ∃ front last place, pathParts path = front ++ [last] ∧ IsName last ∧
      disk.follow (disk.origin path ++ front) = .ok place ∧ place.node.isDirectory = true ∧
      (∀ node, disk.root.at? (last :: place.names).reverse = some node →
        node.isDirectory = false) ∧
      written = disk.put (last :: place.names) (.file bytes) := by
  by_cases nonempty : path = ""
  · rw [write, if_pos nonempty] at done
    cases done
  by_cases closed : path.endsWith "/" = true
  · simp only [write, if_neg nonempty, if_pos closed] at done
    split at done <;> cases done
  obtain ⟨front, last, split, filled⟩ := exists_last_pathPart nonempty (by simpa using closed)
  have trimmed : ((pathParts path).reverse.dropWhile (· = "")).reverse = front ++ [last] := by
    simp [split, filled]
  simp only [write, if_neg nonempty, if_neg closed, trimmed, List.dropLast_concat,
    List.getLast?_concat, Option.getD_some] at done
  split at done
  · cases done
  rename_i place reached
  have within : Within disk.root place := Within.root.follow reached
  refine ⟨nonempty, front, last, place, split, ?_⟩
  split at done
  · rename_i found step
    split at done
    · cases done
    rename_i file
    obtain ⟨directory, foundWithin, names⟩ := within.step step
    have name : IsName last := by
      by_contra other
      exact file (within.isDirectory_of_step step other)
    rw [namesBehind, if_neg name.1, if_neg name.2] at names
    refine ⟨name, reached, directory, fun node there => ?_, ?_⟩
    · rw [← names, foundWithin.at?] at there
      rw [← Option.some.inj there]
      simpa using file
    · rw [← names]
      exact (Except.ok.inj done).symm
  · rename_i missing
    obtain ⟨directory, name, absent⟩ := within.of_step_notFound missing
    refine ⟨name, reached, directory, fun node there => ?_, (Except.ok.inj done).symm⟩
    rw [absent] at there
    cases there
  · cases done

/-- What was written to a path is read back from it. -/
theorem read_write {disk written : Disk} {path : String} {bytes : List UInt8}
    (done : disk.write path bytes = .ok written) : written.read path = .ok bytes := by
  obtain ⟨nonempty, front, last, place, split, name, reached, directory, free, whole⟩ :=
    exists_of_write done
  have origin : written.origin path = disk.origin path := by
    rw [whole]
    rfl
  have stands : written.root.at? (last :: place.names).reverse = some (.file bytes) := by
    rw [whole]
    exact FileNode.at?_put _ _ _
  have kept : disk.root.KeepsDirectories written.root := by
    rw [whole]
    exact FileNode.keepsDirectories_put free
  obtain ⟨here, reachedHere, same⟩ := Within.root.exists_follow kept .root rfl reached directory
  have within := Within.root.follow reachedHere
  have left := (Within.root.follow reached).isDirectory_of_names kept within same directory
  obtain ⟨next, step⟩ := within.exists_step left fun _ => by rw [same, stands]; rfl
  obtain ⟨_, nextWithin, names⟩ := within.step step
  rw [namesBehind, if_neg name.1, if_neg name.2, same] at names
  have node : next.node = .file bytes := by
    have there := nextWithin.at?
    rw [names, stands] at there
    exact (Option.some.inj there).symm
  have located : written.locate path = .ok next := by
    rw [locate, if_neg nonempty, split, origin, ← List.append_assoc, follow, follow_append,
      reachedHere, Except.bind, follow_cons, step]
    rfl
  rw [read, located]
  simp [node]

end Disk
end TypedTree
