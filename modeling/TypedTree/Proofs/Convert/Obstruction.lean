import Mathlib.Data.List.Enum
import TypedTree.Proofs.Convert.Places
import TypedTree.Proofs.Decimal.Doubles
import TypedTree.Proofs.Value.Members

/-!
# What keeps a value from going out

A value goes out unless an unknown value or a number without an exact document number stands in it.
The conversion reports the first of these in depth-first order, under its own address: positions in
lists and tuples, names in maps and objects, and in every set on the way the element itself,
although a set converts its elements under its own path and the step is put in afterwards.
-/

namespace TypedTree.Value

open ConvertError (Cause)

/-- The members of a value, each with the step to it. -/
def addressed : Value → List (Step × Value)
  | list _ items | tuple items => items.zipIdx.map fun item => (.index item.2, item.1)
  | set _ items => items.map fun item => (.element item, item)
  | map _ entries => entries.map fun entry => (.key entry.1, entry.2)
  | object entries => entries.map fun entry => (.attr entry.1, entry.2)
  | _ => []

/-- With their steps the members are the same. -/
theorem map_snd_addressed (value : Value) : value.addressed.map Prod.snd = value.members := by
  cases value <;> simp [addressed, members, Function.comp_def, List.zipIdx_map_fst]

/-- Members are smaller than the value around them. -/
theorem sizeOf_member {value member : Value} (held : member ∈ value.members) :
    sizeOf member < sizeOf value := by
  cases value with
  | list element items | set element items | tuple items =>
    have smaller : sizeOf member < sizeOf items := List.sizeOf_lt_of_mem held
    simp only [list.sizeOf_spec, set.sizeOf_spec, tuple.sizeOf_spec]
    omega
  | map element entries | object entries =>
    obtain ⟨⟨name, _⟩, there, rfl⟩ := List.mem_map.1 held
    have smaller := List.sizeOf_lt_of_mem there
    simp only [Prod.mk.sizeOf_spec] at smaller
    simp only [map.sizeOf_spec, object.sizeOf_spec]
    omega
  | _ => cases held

/-- The places of a value: the value itself, then those of its members, one after the other. -/
def traversal : Traversal Value where
  parts := addressed
  smaller := by
    refine ⟨sizeOf, fun value part held => sizeOf_member ?_⟩
    rw [← map_snd_addressed]
    exact List.mem_map_of_mem held

/-- What is inside a value stands at one of its places, and what stands there is inside it. -/
theorem inside_iff {part value : Value} :
    Inside part value ↔ ∃ steps, (steps, part) ∈ traversal.places value := by
  constructor
  · intro inside
    induction inside with
    | here => exact ⟨[], Traversal.self_mem⟩
    | within held _ ih =>
      obtain ⟨steps, there⟩ := ih
      rw [← map_snd_addressed, List.mem_map] at held
      obtain ⟨⟨step, _⟩, addressed, rfl⟩ := held
      exact ⟨step :: steps, Traversal.cons_mem.2 ⟨_, addressed, there⟩⟩
  · rintro ⟨steps, there⟩
    induction steps generalizing value with
    | nil =>
      obtain rfl := Traversal.nil_mem.1 there
      exact .here
    | cons step steps ih =>
      obtain ⟨member, held, inside⟩ := Traversal.cons_mem.1 there
      refine .within ?_ (ih inside)
      rw [← map_snd_addressed]
      exact List.mem_map_of_mem (f := Prod.snd) held

/-- Why a value cannot go out, whatever stands around it. -/
inductive Obstructs : Value → Cause → Prop
  /-- Nothing is known that could go out. -/
  | unknown (shape : Shape) : Obstructs (unknown shape) .unknownValue
  /-- No integer within a word, and as no integer not the decimal of a double. -/
  | number {n : Decimal} : ¬ n.Sendable → Obstructs (number n) .inexactNumber

/-- The cause for which a value itself cannot go out, if there is one. -/
def obstruction? : Value → Option Cause
  | unknown _ => some .unknownValue
  | number n => if n.toJson?.isSome then none else some .inexactNumber
  | _ => none

theorem obstruction?_eq_some {value : Value} {cause : Cause} :
    value.obstruction? = some cause ↔ Obstructs value cause := by
  constructor
  · intro found
    cases value with
    | unknown shape =>
      obtain rfl := Option.some.inj found
      exact .unknown shape
    | number n =>
      simp only [obstruction?, Decimal.isSome_toJson?, Option.ite_none_left_eq_some,
        Option.some.injEq] at found
      obtain ⟨lost, rfl⟩ := found
      exact .number lost
    | _ => cases found
  · intro obstructs
    cases obstructs with
    | unknown shape => rfl
    | number lost => simp [obstruction?, Decimal.isSome_toJson?, lost]

theorem obstruction?_eq_none {value : Value} :
    value.obstruction? = none ↔ ∀ cause, ¬ Obstructs value cause := by
  simp only [Option.eq_none_iff_forall_ne_some, ne_eq, obstruction?_eq_some]

/-- The conversion of a value reports the first obstruction in it, at every path. -/
def ReportsFirst (value : Value) : Prop :=
  ∀ path, Reports path (firstFault? obstruction? (traversal.places value)) (toJson? value path)

section Collections

variable {items : List Value} {entries : List (String × Value)}

/-- Items report the first obstruction in them. -/
theorem itemsToJson_reports (each : ∀ item ∈ items, ReportsFirst item) (position : Nat)
    (path : Path) :
    Reports path
      (firstFault? obstruction? (traversal.placesOf
        ((items.zipIdx position).map fun item => (.index item.2, item.1))))
      (itemsToJson items position path) := by
  induction items generalizing position with
  | nil => exact .passes []
  | cons item rest ih =>
    obtain ⟨here, others⟩ := List.forall_mem_cons.1 each
    have stages : itemsToJson (item :: rest) position path =
        (toJson? item (path.push (.index position))).bind fun kept =>
          (itemsToJson rest (position + 1) path).map (kept.toList ++ ·) := by
      rw [itemsToJson]
      cases toJson? item (path.push (.index position)) with
      | error error => rfl
      | ok kept => cases itemsToJson rest (position + 1) path <;> rfl
    simp only [List.zipIdx_cons, List.map_cons, Traversal.placesOf_cons, firstFault?_append,
      firstFault?_below, stages]
    exact (here _).pushed.andThen fun kept _ => (ih others (position + 1)).map (kept.toList ++ ·)

/-- Set elements report the first obstruction in them, behind the step to the element. -/
theorem elementsToJson_reports (each : ∀ item ∈ items, ReportsFirst item) (path : Path) :
    Reports path
      (firstFault? obstruction? (traversal.placesOf
        (items.map fun item => (.element item, item))))
      (elementsToJson items path) := by
  induction items with
  | nil => exact .passes []
  | cons item rest ih =>
    obtain ⟨here, others⟩ := List.forall_mem_cons.1 each
    have stages : elementsToJson (item :: rest) path =
        ((toJson? item path).mapError (·.throughElement path item)).bind fun kept =>
          (elementsToJson rest path).map (kept.toList ++ ·) := by
      rw [elementsToJson]
      cases toJson? item path with
      | error error => rfl
      | ok kept => cases elementsToJson rest path <;> rfl
    simp only [List.map_cons, Traversal.placesOf_cons, firstFault?_append, firstFault?_below,
      stages]
    exact ((here path).throughElement item).andThen fun kept _ =>
      (ih others).map (kept.toList ++ ·)

/-- Entries report the first obstruction in them. -/
theorem entriesToJson_reports (each : ∀ entry ∈ entries, ReportsFirst entry.2)
    (step : String → Step) (path : Path) :
    Reports path
      (firstFault? obstruction? (traversal.placesOf
        (entries.map fun entry => (step entry.1, entry.2))))
      (entriesToJson entries step path) := by
  induction entries with
  | nil => exact .passes []
  | cons entry rest ih =>
    obtain ⟨here, others⟩ := List.forall_mem_cons.1 each
    have stages : entriesToJson (entry :: rest) step path =
        (toJson? entry.2 (path.push (step entry.1))).bind fun kept =>
          (entriesToJson rest step path).map
            (kept.toList.map (fun document => (entry.1, document)) ++ ·) := by
      rw [entriesToJson]
      cases toJson? entry.2 (path.push (step entry.1)) with
      | error error => rfl
      | ok kept => cases entriesToJson rest step path <;> rfl
    simp only [List.map_cons, Traversal.placesOf_cons, firstFault?_append, firstFault?_below,
      stages]
    exact (here _).pushed.andThen fun kept _ =>
      (ih others).map (kept.toList.map (fun document => (entry.1, document)) ++ ·)

end Collections

/-- A value that obstructs nothing itself reports what its members report. -/
theorem firstFault?_places {value : Value} (clear : value.obstruction? = none) :
    firstFault? obstruction? (traversal.places value) =
      firstFault? obstruction? (traversal.placesOf value.addressed) := by
  rw [Traversal.places_eq, firstFault?_cons, clear]
  rfl

/-- The outward conversion reports the first obstruction in depth-first order. -/
theorem toJson?_reports (value : Value) : ReportsFirst value := by
  induction value with
  | null | text | bool =>
    intro path
    rw [firstFault?_places rfl]
    exact .passes _
  | unknown shape =>
    intro path
    rw [Traversal.places_eq, firstFault?_cons]
    exact .here path .unknownValue
  | number n =>
    intro path
    rw [Traversal.places_eq, firstFault?_cons, toJson?, obstruction?]
    cases n.toJson? with
    | none => exact .here path .inexactNumber
    | some sent => exact .passes _
  | list element items ih | tuple items ih =>
    intro path
    rw [firstFault?_places rfl, toJson?]
    have parts := (itemsToJson_reports ih 0 path).map (keepArray items.length)
    cases sent : itemsToJson items 0 path <;> rw [sent] at parts <;> exact parts
  | set element items ih =>
    intro path
    rw [firstFault?_places rfl, toJson?]
    have parts := (elementsToJson_reports ih path).map (keepArray items.length)
    cases sent : elementsToJson items path <;> rw [sent] at parts <;> exact parts
  | map element entries ih =>
    intro path
    rw [firstFault?_places rfl, toJson?]
    have parts := (entriesToJson_reports ih .key path).map (keepObject entries.length)
    cases sent : entriesToJson entries .key path <;> rw [sent] at parts <;> exact parts
  | object entries ih =>
    intro path
    rw [firstFault?_places rfl, toJson?]
    have parts := (entriesToJson_reports ih .attr path).map (keepObject entries.length)
    cases sent : entriesToJson entries .attr path <;> rw [sent] at parts <;> exact parts

/-- An error of the outward conversion has the cause of an obstruction somewhere in the value. -/
theorem somewhere_of_error {value : Value} {path : Path} {error : ConvertError}
    (failed : toJson? value path = .error error) :
    traversal.Somewhere (Obstructs · error.cause) value := by
  obtain ⟨steps, cause, found, rfl⟩ := ((toJson?_reports value path).error_iff error).1 failed
  obtain ⟨before, part, after, split, -, own⟩ := firstFault?_eq_some.1 found
  refine ⟨(steps, part), ?_, obstruction?_eq_some.1 own⟩
  rw [split]
  exact List.mem_append_right _ List.mem_cons_self

/-- A value cannot go out exactly when something in it obstructs. -/
theorem exists_error_iff {value : Value} {path : Path} :
    (∃ error, toJson? value path = .error error) ↔
      ∃ cause, traversal.Somewhere (Obstructs · cause) value := by
  constructor
  · rintro ⟨error, failed⟩
    exact ⟨error.cause, somewhere_of_error failed⟩
  · rintro ⟨cause, place, held, own⟩
    cases sent : toJson? value path with
    | error error => exact ⟨error, rfl⟩
    | ok result =>
      have none := (toJson?_reports value path).ok_iff.1 ⟨result, sent⟩
      have clear := firstFault?_eq_none.1 none _ held
      exact absurd own (obstruction?_eq_none.1 clear cause)

/--
A value cannot go out exactly when something inside it obstructs. The error has the cause of the
first place in depth-first order that obstructs, and the address of that place behind the path.
-/
theorem toJson?_fails_first (value : Value) (path : Path) :
    ((∃ error, toJson? value path = .error error) ↔
      ∃ part cause, Inside part value ∧ Obstructs part cause) ∧
    ∀ error, toJson? value path = .error error ↔
      ∃ before steps part after cause,
        traversal.places value = before ++ (steps, part) :: after ∧
        (∀ earlier ∈ before, ∀ cause, ¬ Obstructs earlier.2 cause) ∧ Obstructs part cause ∧
        error = ⟨path.under steps, cause⟩ := by
  have reports := toJson?_reports value path
  refine ⟨?_, fun error => ?_⟩
  · rw [exists_error_iff]
    constructor
    · rintro ⟨cause, ⟨steps, part⟩, held, own⟩
      exact ⟨part, cause, inside_iff.2 ⟨steps, held⟩, own⟩
    · rintro ⟨part, cause, inside, own⟩
      obtain ⟨steps, held⟩ := inside_iff.1 inside
      exact ⟨cause, (steps, part), held, own⟩
  · simp only [reports.error_iff, firstFault?_eq_some, obstruction?_eq_none, obstruction?_eq_some]
    constructor
    · rintro ⟨steps, cause, ⟨before, part, after, split, clear, own⟩, same⟩
      exact ⟨before, steps, part, after, cause, split, clear, own, same⟩
    · rintro ⟨before, steps, part, after, cause, split, clear, own, same⟩
      exact ⟨steps, cause, ⟨before, part, after, split, clear, own⟩, same⟩

example : toJson? (tuple [null .bool, set .dynamic [text "a", set .bool [unknown .bool]]])
      ⟨[.attr "spec"]⟩ =
    .error ⟨⟨[.attr "spec", .index 1, .element (set .bool [unknown .bool]),
      .element (unknown .bool)]⟩, .unknownValue⟩ := rfl

end TypedTree.Value
