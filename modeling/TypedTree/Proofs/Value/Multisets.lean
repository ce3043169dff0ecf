import TypedTree.Proofs.Shape.Order
import TypedTree.Proofs.Value.Comparison
import TypedTree.Proofs.Value.Members

/-!
# Sets as multisets

Equality of well-formed values is an equivalence, although the comparison of sets takes the first
free match for every element and the comparison of tables looks every entry up from one side. Sets
are equal when the elements of the one can be arranged so that they equal those of the other, tables
when their entries can, at every depth. Equal values conform alike.
-/

namespace TypedTree.Value

/-- The comparison of well-formed values is an equivalence, as sameness is one. -/
theorem beq_equivalence :
    Equivalence (fun a b : { value : Value // value.WellFormed } => (a.1 == b.1) = true) where
  refl a := (beq_iff_same a.2 a.2).2 (.refl a.2)
  symm {a b} same := (beq_iff_same b.2 a.2).2 (((beq_iff_same a.2 b.2).1 same).symm a.2 b.2)
  trans {a b c} first second := (beq_iff_same a.2 c.2).2
    (((beq_iff_same a.2 b.2).1 first).trans ((beq_iff_same b.2 c.2).1 second))

section Parts

variable {items others : List Value} {entries table : List (String × Value)}

/-- On well-formed items equality one by one is sameness one by one. -/
theorem forall₂_beq_iff (left : ∀ item ∈ items, item.WellFormed)
    (right : ∀ item ∈ others, item.WellFormed) :
    List.Forall₂ (fun a b => a == b) items others ↔ List.Forall₂ Same items others := by
  constructor
  · exact fun parts => Paired.imp parts fun a ha b hb => (beq_iff_same (left a ha) (right b hb)).1
  · exact fun parts => Paired.imp parts fun a ha b hb => (beq_iff_same (left a ha) (right b hb)).2

/-- Tables of distinct keys correspond when the entries of one can be arranged like the other's. -/
theorem corresponds_same_iff (distinct : Entries.Distinct entries)
    (distinctRight : Entries.Distinct table) (left : ∀ entry ∈ entries, entry.2.WellFormed)
    (right : ∀ entry ∈ table, entry.2.WellFormed) :
    Entries.Corresponds Same entries table ↔
      ∃ arranged, Entries.Aligned (fun a b => a == b) entries arranged ∧ arranged.Perm table := by
  constructor
  · intro matching
    obtain ⟨arranged, aligned, order⟩ := matching.exists_aligned distinct
    refine ⟨arranged, Paired.imp aligned fun a ha b hb both => ⟨both.1, ?_⟩, order⟩
    exact (beq_iff_same (left a ha) (right b (order.mem_iff.1 hb))).2 both.2
  · rintro ⟨arranged, aligned, order⟩
    have same : Entries.Aligned Same entries arranged :=
      Paired.imp aligned fun a ha b hb both =>
        ⟨both.1, (beq_iff_same (left a ha) (right b (order.mem_iff.1 hb))).1 both.2⟩
    exact same.corresponds_of_perm (.refl entries) order distinct distinctRight

end Parts

/-- Sets are equal when the elements of one can be arranged like the other's. -/
theorem set_beq_iff {element other : Shape} {items others : List Value}
    (left : (set element items).WellFormed) (right : (set other others).WellFormed) :
    set element items == set other others ↔
      element == other ∧ ∃ arranged, List.Forall₂ (fun a b => a == b) items arranged ∧
        arranged.Perm others := by
  rw [beq_iff_same left right, set_same]
  rw [wellFormed_set] at left right
  have inside {arranged : List Value} (order : arranged.Perm others) :
      ∀ item ∈ arranged, item.WellFormed :=
    fun item held => right.2 item (order.mem_iff.1 held)
  constructor
  · rintro ⟨_, _, ⟨rfl, rfl⟩, shapes, arranged, parts, order⟩
    exact ⟨shapes, arranged, (forall₂_beq_iff left.2 (inside order)).2 parts, order⟩
  · rintro ⟨shapes, arranged, parts, order⟩
    exact ⟨_, _, rfl, shapes, arranged, (forall₂_beq_iff left.2 (inside order)).1 parts, order⟩

/-- Maps are equal when the entries of one can be arranged like the other's. -/
theorem map_beq_iff {element other : Shape} {entries table : List (String × Value)}
    (left : (map element entries).WellFormed) (right : (map other table).WellFormed) :
    map element entries == map other table ↔
      element == other ∧ ∃ arranged, Entries.Aligned (fun a b => a == b) entries arranged ∧
        arranged.Perm table := by
  rw [beq_iff_same left right, map_same]
  rw [wellFormed_map] at left right
  rw [← corresponds_same_iff left.2.1 right.2.1 left.2.2 right.2.2]
  simp

/-- Objects are equal when the entries of one can be arranged like the other's. -/
theorem object_beq_iff {entries table : List (String × Value)}
    (left : (object entries).WellFormed) (right : (object table).WellFormed) :
    object entries == object table ↔
      ∃ arranged, Entries.Aligned (fun a b => a == b) entries arranged ∧ arranged.Perm table := by
  rw [beq_iff_same left right, object_same]
  rw [wellFormed_object] at left right
  rw [← corresponds_same_iff left.1 right.1 left.2 right.2]
  simp

/-- Whether a member has a shape that its surroundings admit and conforms itself. -/
def Fits (element : Option Shape) (member : Value) : Prop :=
  (∀ shape, element = some shape → shape.accepts member.shape = true) ∧ member.conforms = true

/-- A value conforms when all of its members fit. -/
theorem conforms_iff (value : Value) :
    value.conforms = true ↔ ∀ member ∈ value.members, Fits value.shape.element? member := by
  cases value with
  | null | unknown | text | bool | number => exact ⟨fun _ => by simp [members], fun _ => rfl⟩
  | list | tuple | set => simp [members, Fits, Shape.element?]
  | map | object => simp [members, List.forall_mem_map, -List.mem_map, Fits, Shape.element?]

/-- The same members fit into equal surroundings. -/
theorem Same.fits_iff {a b member other : Value} (left : a.WellFormed) (right : member.WellFormed)
    (around : Same a b) (same : Same member other)
    (conforms : member.conforms = other.conforms) :
    Fits b.shape.element? other ↔ Fits a.shape.element? member := by
  have elements := Shape.element?_rel around.shape
  have formed (shape : Shape) (found : a.shape.element? = some shape) : shape.WellFormed :=
    left.shape.element found
  generalize a.shape.element? = element, b.shape.element? = declared at elements formed
  cases elements with
  | none => simp [Fits, conforms]
  | some equal =>
    simp [Fits, conforms, Shape.accepts_congr (formed _ rfl) right.shape equal same.shape]

/-- The same values conform alike. -/
theorem Same.conforms_eq {a b : Value} (left : a.WellFormed) (same : Same a b) :
    a.conforms = b.conforms := by
  induction a using members_induction generalizing b with
  | step a ih =>
    obtain ⟨arranged, parts, order⟩ := same.members left
    have fits : (∀ member ∈ arranged, Fits b.shape.element? member) ↔
        ∀ member ∈ a.members, Fits a.shape.element? member :=
      Paired.members_iff parts fun member held _ _ alike =>
        same.fits_iff left (left.member held) alike (ih member held (left.member held) alike)
    rw [Bool.eq_iff_iff, conforms_iff, conforms_iff, ← fits]
    simp only [order.mem_iff]

/--
Equality of well-formed values is an equivalence. Two sets are equal just when their shapes are and
the elements of the one, in some order, equal those of the other one by one; so it is with the
entries of maps and objects, under their names. The elements are compared in the same way, so this
holds at every depth. Equal values conform alike.
-/
theorem equality_is_equivalence :
    Equivalence (fun a b : { value : Value // value.WellFormed } => (a.1 == b.1) = true) ∧
      (∀ (element other : Shape) (items others : List Value), (set element items).WellFormed →
        (set other others).WellFormed →
        (set element items == set other others ↔
          element == other ∧ ∃ arranged, List.Forall₂ (fun a b => a == b) items arranged ∧
            arranged.Perm others)) ∧
      (∀ (element other : Shape) (entries table : List (String × Value)),
        (map element entries).WellFormed → (map other table).WellFormed →
        (map element entries == map other table ↔
          element == other ∧ ∃ arranged, Entries.Aligned (fun a b => a == b) entries arranged ∧
            arranged.Perm table)) ∧
      (∀ entries table : List (String × Value), (object entries).WellFormed →
        (object table).WellFormed →
        (object entries == object table ↔
          ∃ arranged, Entries.Aligned (fun a b => a == b) entries arranged ∧
            arranged.Perm table)) ∧
      ∀ a b : Value, a.WellFormed → b.WellFormed → a == b → a.conforms = b.conforms := by
  refine ⟨beq_equivalence, fun _ _ _ _ => set_beq_iff, fun _ _ _ _ => map_beq_iff,
    fun _ _ => object_beq_iff, fun a b left right same => ?_⟩
  exact ((beq_iff_same left right).1 same).conforms_eq left

/-- Two teams, one of which has a member who is not known by name. -/
def earlyTeam : Value := set .dynamic [text "a", null .string]

@[inherit_doc earlyTeam]
def lateTeam : Value := set .dynamic [bool true, text "b"]

/-- A record of a set of teams and their number. -/
def teams : Value :=
  .object [("teams", set (.set .dynamic) [earlyTeam, lateTeam]), ("count", number (.ofInt 2))]

/-- The record, the teams and one of the teams in another order. -/
def teamsTurned : Value :=
  .object [("count", number (.ofInt 2)),
    ("teams", set (.set .dynamic) [lateTeam, set .dynamic [null .string, text "a"]])]

/-- The orders make no difference, neither in the sets nor around them. -/
theorem teams_equal_in_any_order :
    teams == teamsTurned ∧ teams.conforms = teamsTurned.conforms := by
  obtain ⟨equivalence, sets, -, objects, conform⟩ := equality_is_equivalence
  have known : lateTeam.WellFormed := by simp [lateTeam]
  have early : earlyTeam == set .dynamic [null .string, text "a"] :=
    (sets _ _ _ _ (by simp) (by simp)).2 ⟨rfl, _, .cons rfl (.cons rfl .nil), .swap _ _ _⟩
  have late : lateTeam == lateTeam := equivalence.refl ⟨lateTeam, known⟩
  have together : set (.set .dynamic) [earlyTeam, lateTeam] ==
      set (.set .dynamic) [lateTeam, set .dynamic [null .string, text "a"]] :=
    (sets _ _ _ _ (by simp [earlyTeam, lateTeam]) (by simp [lateTeam])).2
      ⟨rfl, _, .cons early (.cons late .nil), .swap _ _ _⟩
  have count : number (.ofInt 2) == number (.ofInt 2) :=
    equivalence.refl ⟨number (.ofInt 2), .number _⟩
  have left : teams.WellFormed := by simp [teams, earlyTeam, lateTeam, Entries.Distinct]
  have right : teamsTurned.WellFormed := by simp [teamsTurned, lateTeam, Entries.Distinct]
  have equal : teams == teamsTurned := by
    refine (objects _ _ left right).2 ⟨_, ?_, .swap _ _ _⟩
    exact .cons ⟨rfl, together⟩ (.cons ⟨rfl, count⟩ .nil)
  exact ⟨equal, conform _ _ left right equal⟩

end TypedTree.Value
