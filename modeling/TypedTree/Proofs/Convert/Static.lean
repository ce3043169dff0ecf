import TypedTree.Proofs.Convert.Readback
import TypedTree.Proofs.Value.Members

/-!
# Values without `dynamic` in their shapes

Where nothing is left open in the shape of a value that conforms, the shape of every member is the
one that its place declares, also that of a null. So the value can be taken apart under any shape
that equals its own, and its members stand under the parts of that shape in the same way.
-/

namespace TypedTree.Value

/-- A shape that equals one without `dynamic` is not plain `dynamic`. -/
theorem ne_dynamic {element inner : Shape} (static : element.hasDynamic = false)
    (same : element == inner) : inner ≠ .dynamic := by
  rintro rfl
  obtain rfl := (Shape.beq_dynamic element).1 same
  cases static

/-- A value that conforms, under a shape that equals its own and in which nothing is `dynamic`. -/
structure Static (value : Value) (other : Shape) : Prop where
  formed : value.WellFormed
  conforms : value.conforms = true
  static : value.shape.hasDynamic = false
  same : value.shape == other

namespace Static

variable {element inner other : Shape} {member : Value} {items : List Value}
  {entries : List (String × Value)}

/-- A member that fits an element shape without `dynamic` stands under every equal one. -/
theorem of_fits (shape : element.WellFormed) (static : element.hasDynamic = false)
    (same : element == inner) (formed : member.WellFormed)
    (fits : element.accepts member.shape = true ∧ member.conforms = true) :
    Static member inner := by
  have equal := Shape.beq_of_accepts static fits.1
  have turned := Shape.beq_symm shape equal
  exact ⟨formed, fits.2, Shape.hasDynamic_of_beq shape equal static,
    Shape.beq_trans turned same⟩

/-- The items of a list stand under the element shape. -/
theorem list (fixed : Static (list element items) other) :
    ∃ inner, other = .list inner ∧ inner ≠ .dynamic ∧ element == inner ∧
      ∀ item ∈ items, Static item inner := by
  obtain ⟨formed, conforms, static, same⟩ := fixed
  rw [wellFormed_list] at formed
  rw [conforms_list] at conforms
  rw [shape_list, Shape.hasDynamic_list] at static
  obtain ⟨inner, rfl, equal⟩ := (Shape.list_beq _ _).1 same
  exact ⟨inner, rfl, ne_dynamic static equal, equal, fun item held =>
    of_fits formed.1 static equal (formed.2 item held) (conforms item held)⟩

/-- The elements of a set stand under the element shape. -/
theorem set (fixed : Static (set element items) other) :
    ∃ inner, other = .set inner ∧ inner ≠ .dynamic ∧ element == inner ∧
      ∀ item ∈ items, Static item inner := by
  obtain ⟨formed, conforms, static, same⟩ := fixed
  rw [wellFormed_set] at formed
  rw [conforms_set] at conforms
  rw [shape_set, Shape.hasDynamic_set] at static
  obtain ⟨inner, rfl, equal⟩ := (Shape.set_beq _ _).1 same
  exact ⟨inner, rfl, ne_dynamic static equal, equal, fun item held =>
    of_fits formed.1 static equal (formed.2 item held) (conforms item held)⟩

/-- The entries of a map stand under the element shape. -/
theorem map (fixed : Static (map element entries) other) :
    ∃ inner, other = .map inner ∧ inner ≠ .dynamic ∧ element == inner ∧
      ∀ entry ∈ entries, Static entry.2 inner := by
  obtain ⟨formed, conforms, static, same⟩ := fixed
  rw [wellFormed_map] at formed
  rw [conforms_map] at conforms
  rw [shape_map, Shape.hasDynamic_map] at static
  obtain ⟨inner, rfl, equal⟩ := (Shape.map_beq _ _).1 same
  exact ⟨inner, rfl, ne_dynamic static equal, equal, fun entry held =>
    of_fits formed.1 static equal (formed.2.2 entry held) (conforms entry held)⟩

/-- The items of a tuple stand in the slots, one by one. -/
theorem tuple (fixed : Static (tuple items) other) :
    ∃ slots, other = .tuple slots ∧ List.Forall₂ Static items slots := by
  obtain ⟨formed, conforms, static, same⟩ := fixed
  rw [wellFormed_tuple] at formed
  rw [conforms_tuple] at conforms
  rw [shape_tuple] at static same
  rw [Shape.hasDynamic_tuple, List.forall_mem_map] at static
  obtain ⟨slots, rfl, equal⟩ := (Shape.tuple_beq _ _).1 same
  refine ⟨slots, rfl, Paired.imp (List.forall₂_map_left_iff.1 equal) fun item held _ _ same => ?_⟩
  exact ⟨formed item held, conforms item held, static item held, same⟩

/-- The entries of an object stand under the attributes of their names. -/
theorem object (fixed : Static (object entries) other) :
    ∃ attributes, other = .object attributes ∧
      (Entries.keys entries).Perm (Entries.keys attributes) ∧
      ∀ entry ∈ entries, ∀ shape, Entries.get? attributes entry.1 = some shape →
        Static entry.2 shape := by
  obtain ⟨formed, conforms, static, same⟩ := fixed
  rw [wellFormed_object] at formed
  rw [conforms_object] at conforms
  rw [shape_object, Shape.hasDynamic_object, List.forall_mem_map] at static
  obtain ⟨attributes, rfl, order, equal⟩ := exists_own formed.1 same
  refine ⟨attributes, rfl, order, fun entry held shape slot => ?_⟩
  have under := equal _ _ _ (Entries.get?_of_mem formed.1 held) slot
  exact ⟨formed.2 entry held, conforms entry held, static entry held, under⟩

end Static

/-- What is read under a shape keeps it: a null has it already. -/
theorem Reads.retypeNull_self {document : Json} {shape : Shape} {value : Value}
    (read : Reads document shape value) : value.retypeNull shape = value := by
  by_cases absent : document = .null
  · subst absent
    rw [(reads_null _ _).1 read]
    rfl
  · have known := (read.known absent).1
    rw [isKnown, Bool.and_eq_true, Bool.not_eq_true'] at known
    exact retypeNull_of_present shape known.1

/-- Members that are read back one by one are the members of a collection over their shape. -/
theorem exists_backs {members : List Value} {documents : List Json} {inner : Shape}
    (each : List.Forall₂ (fun member document => ReadsBack member document inner) members
      documents) :
    ∃ backs, List.Forall₂ (Reads · inner ·) documents backs ∧
      List.Forall₂ Same members (backs.map (Value.retypeNull inner)) := by
  obtain ⟨backs, reads, same⟩ := Paired.exists_between each
  have kept : ∀ value ∈ backs, value.retypeNull inner = value := by
    intro value held
    obtain ⟨document, _, read⟩ := Paired.exists_left reads held
    exact read.retypeNull_self
  exact ⟨backs, reads, by rwa [List.map_congr_left kept, List.map_id']⟩

end TypedTree.Value
