import Mathlib
import TypedTree.Proofs.Convert.Static
import TypedTree.Proofs.Shape.Writing

/-!
# The wire form is decoded under the shape

Where nothing is left open in the shape of a value that conforms, the value part of its wire form is
read back under that shape as an equal value, nulls and empty collections included, however the
value was made. So the wire form tells such values apart: equal documents are those of equal values.
-/

namespace TypedTree.Value

/-! ## Reading back -/

/-- A value is read back from its value part under every shape that equals its own. -/
theorem Static.readsBack {value : Value} {sent : Json} {other : Shape} (fixed : Static value other)
    (wires : Wires value sent) : ReadsBack value sent other := by
  induction value generalizing sent other with
  | null shape =>
    obtain rfl := (wires_null _ _).1 wires
    exact readsBack_null fixed.same
  | unknown shape => simpa [wireValue] using wires .root
  | text known =>
    obtain rfl := (wires_text _ _).1 wires
    obtain rfl := (Shape.string_beq _).1 fixed.same
    exact ⟨_, by simp, .text known⟩
  | bool known =>
    obtain rfl := (wires_bool _ _).1 wires
    obtain rfl := (Shape.bool_beq _).1 fixed.same
    exact ⟨_, by simp, .bool known⟩
  | number known =>
    obtain ⟨number, exactly, rfl⟩ := (wires_number _ _).1 wires
    obtain rfl := (Shape.number_beq _).1 fixed.same
    exact ⟨_, (reads_number _ _ _).2 ⟨.inl rfl, rfl⟩,
      by simp [Decimal.ofJson_of_toJson? exactly]⟩
  | list element items ih =>
    obtain ⟨documents, parts, rfl⟩ := (wires_list _ _ _).1 wires
    obtain ⟨inner, rfl, known, equal, each⟩ := fixed.list
    obtain ⟨backs, reads, same⟩ :=
      exists_backs (Paired.imp parts fun item held _ _ => ih item held (each item held))
    exact ⟨_, (reads_list _ _ _).2 ⟨backs, inner, reads, unify_declared known _, rfl⟩,
      .list equal same⟩
  | set element items ih =>
    obtain ⟨documents, parts, rfl⟩ := (wires_set _ _ _).1 wires
    obtain ⟨inner, rfl, known, equal, each⟩ := fixed.set
    obtain ⟨backs, reads, same⟩ :=
      exists_backs (Paired.imp parts fun item held _ _ => ih item held (each item held))
    exact ⟨_, (reads_set _ _ _).2 ⟨backs, inner, reads, unify_declared known _, rfl⟩,
      .set equal same (.refl _)⟩
  | map element entries ih =>
    have distinct := ((wellFormed_map _ _).1 fixed.formed).2.1
    obtain ⟨members, parts, rfl⟩ := (wires_map _ _ _).1 wires
    obtain ⟨inner, rfl, known, equal, each⟩ := fixed.map
    have back : ∀ value ∈ entries.map Prod.snd, ∀ document, Wires value document →
        ReadsBack value document inner :=
      List.forall_mem_map.2 fun entry held _ => ih entry held (each entry held)
    obtain ⟨backs, reads, same⟩ :=
      exists_backs (Paired.imp parts.values fun value held document _ => back value held document)
    have aligned := Entries.Aligned.zip same
    rw [parts.keys_eq] at aligned
    exact ⟨_, reads_map_zip reads (unify_declared known _),
      (map_same _ _ _).2 ⟨_, _, rfl, equal, aligned.corresponds distinct⟩⟩
  | tuple items ih =>
    obtain ⟨documents, parts, rfl⟩ := (wires_tuple _ _).1 wires
    obtain ⟨slots, rfl, under⟩ := fixed.tuple
    refine readsBack_tuple (under.length_eq.symm.trans parts.length_eq) ?_
    exact Paired.zip parts under fun item held _ _ _ _ wires fixed => ih item held fixed wires
  | object entries ih =>
    have distinct := ((wellFormed_object _).1 fixed.formed).1
    obtain ⟨members, parts, rfl⟩ := (wires_object _ _).1 wires
    obtain ⟨attributes, rfl, order, each⟩ := fixed.object
    refine readsBack_wired distinct parts order fun name value shape document found slot wires => ?_
    have held := Entries.mem_of_get? found
    exact ih (name, value) held (each (name, value) held shape slot) wires

/-! ## Equal wire forms -/

section Wired

variable {value : Value} {inner : Shape} {documents : List Json} {members : List (String × Json)}

/-- Only a null is null on the wire. -/
theorem Wires.of_null (wires : Wires value .null) : ∃ shape, value = null shape := by
  cases value with
  | null shape => exact ⟨shape, rfl⟩
  | unknown shape => simpa [wireValue] using wires .root
  | _ => simp [wires_list, wires_tuple, wires_set, wires_map, wires_object] at wires

/-- Only a text is a text on the wire. -/
theorem Wires.of_text {known : String} (wires : Wires value (.text known)) :
    value = text known := by
  cases value with
  | text own =>
    have same := (wires_text _ _).1 wires
    rw [Json.text.inj same]
  | unknown shape => simpa [wireValue] using wires .root
  | _ => simp [wires_list, wires_tuple, wires_set, wires_map, wires_object] at wires

/-- Only a truth value is one on the wire. -/
theorem Wires.of_bool {known : Bool} (wires : Wires value (.bool known)) : value = bool known := by
  cases value with
  | bool own =>
    have same := (wires_bool _ _).1 wires
    rw [Json.bool.inj same]
  | unknown shape => simpa [wireValue] using wires .root
  | _ => simp [wires_list, wires_tuple, wires_set, wires_map, wires_object] at wires

/-- Only a number is a number on the wire, and the wire tells which. -/
theorem Wires.of_number {sent : Json.Number} (wires : Wires value (.number sent)) :
    value = number (Decimal.ofJson sent) := by
  cases value with
  | number own =>
    obtain ⟨known, exactly, same⟩ := (wires_number _ _).1 wires
    rw [Json.number.inj same, Decimal.ofJson_of_toJson? exactly]
  | unknown shape => simpa [wireValue] using wires .root
  | _ => simp [wires_list, wires_tuple, wires_set, wires_map, wires_object] at wires

/-- Only lists, tuples and sets are arrays on the wire. -/
theorem Wires.of_array (wires : Wires value (.array documents)) :
    ∃ items, List.Forall₂ Wires items documents ∧
      ((∃ element, value = list element items) ∨ value = tuple items ∨
        ∃ element, value = set element items) := by
  cases value with
  | list element items =>
    obtain ⟨_, parts, same⟩ := (wires_list _ _ _).1 wires
    exact ⟨items, Json.array.inj same ▸ parts, .inl ⟨element, rfl⟩⟩
  | tuple items =>
    obtain ⟨_, parts, same⟩ := (wires_tuple _ _).1 wires
    exact ⟨items, Json.array.inj same ▸ parts, .inr (.inl rfl)⟩
  | set element items =>
    obtain ⟨_, parts, same⟩ := (wires_set _ _ _).1 wires
    exact ⟨items, Json.array.inj same ▸ parts, .inr (.inr ⟨element, rfl⟩)⟩
  | unknown shape => simpa [wireValue] using wires .root
  | _ => simp [wires_map, wires_object] at wires

/-- Only maps and objects are objects on the wire. -/
theorem Wires.of_object (wires : Wires value (.object members)) :
    ∃ entries, Entries.Aligned Wires entries members ∧
      ((∃ element, value = map element entries) ∨ value = object entries) := by
  cases value with
  | map element entries =>
    obtain ⟨_, parts, same⟩ := (wires_map _ _ _).1 wires
    exact ⟨entries, Json.object.inj same ▸ parts, .inl ⟨element, rfl⟩⟩
  | object entries =>
    obtain ⟨_, parts, same⟩ := (wires_object _ _).1 wires
    exact ⟨entries, Json.object.inj same ▸ parts, .inr rfl⟩
  | unknown shape => simpa [wireValue] using wires .root
  | _ => simp [wires_list, wires_tuple, wires_set] at wires

namespace Static

/-- An array under a list shape is a list. -/
theorem of_list (fixed : Static value (.list inner)) (wires : Wires value (.array documents)) :
    ∃ element items, value = .list element items ∧ List.Forall₂ Wires items documents ∧
      element == inner ∧ ∀ item ∈ items, Static item inner := by
  obtain ⟨items, parts, ⟨element, rfl⟩ | rfl | ⟨element, rfl⟩⟩ := wires.of_array
  · obtain ⟨_, same, _, equal, each⟩ := fixed.list
    obtain rfl := Shape.list.inj same
    exact ⟨element, items, rfl, parts, equal, each⟩
  · obtain ⟨_, same, _⟩ := fixed.tuple
    cases same
  · obtain ⟨_, same, _⟩ := fixed.set
    cases same

/-- An array under a set shape is a set. -/
theorem of_set (fixed : Static value (.set inner)) (wires : Wires value (.array documents)) :
    ∃ element items, value = .set element items ∧ List.Forall₂ Wires items documents ∧
      element == inner ∧ ∀ item ∈ items, Static item inner := by
  obtain ⟨items, parts, ⟨element, rfl⟩ | rfl | ⟨element, rfl⟩⟩ := wires.of_array
  · obtain ⟨_, same, _⟩ := fixed.list
    cases same
  · obtain ⟨_, same, _⟩ := fixed.tuple
    cases same
  · obtain ⟨_, same, _, equal, each⟩ := fixed.set
    obtain rfl := Shape.set.inj same
    exact ⟨element, items, rfl, parts, equal, each⟩

/-- An array under a tuple shape is a tuple. -/
theorem of_tuple {slots : List Shape} (fixed : Static value (.tuple slots))
    (wires : Wires value (.array documents)) :
    ∃ items, value = .tuple items ∧ List.Forall₂ Wires items documents ∧
      List.Forall₂ Static items slots := by
  obtain ⟨items, parts, ⟨element, rfl⟩ | rfl | ⟨element, rfl⟩⟩ := wires.of_array
  · obtain ⟨_, same, _⟩ := fixed.list
    cases same
  · obtain ⟨_, same, each⟩ := fixed.tuple
    obtain rfl := Shape.tuple.inj same
    exact ⟨items, rfl, parts, each⟩
  · obtain ⟨_, same, _⟩ := fixed.set
    cases same

/-- An object under a map shape is a map. -/
theorem of_map (fixed : Static value (.map inner)) (wires : Wires value (.object members)) :
    ∃ element entries, value = .map element entries ∧ Entries.Aligned Wires entries members ∧
      element == inner ∧ ∀ entry ∈ entries, Static entry.2 inner := by
  obtain ⟨entries, parts, ⟨element, rfl⟩ | rfl⟩ := wires.of_object
  · obtain ⟨_, same, _, equal, each⟩ := fixed.map
    obtain rfl := Shape.map.inj same
    exact ⟨element, entries, rfl, parts, equal, each⟩
  · obtain ⟨_, same, _⟩ := fixed.object
    cases same

/-- An object under an object shape is an object. -/
theorem of_object {attributes : List (String × Shape)} (fixed : Static value (.object attributes))
    (wires : Wires value (.object members)) :
    ∃ entries, value = .object entries ∧ Entries.Aligned Wires entries members ∧
      ∀ entry ∈ entries, ∀ shape, Entries.get? attributes entry.1 = some shape →
        Static entry.2 shape := by
  obtain ⟨entries, parts, ⟨element, rfl⟩ | rfl⟩ := wires.of_object
  · obtain ⟨_, same, _⟩ := fixed.map
    cases same
  · obtain ⟨_, same, _, each⟩ := fixed.object
    obtain rfl := Shape.object.inj same
    exact ⟨entries, rfl, parts, each⟩

end Static

/-- Entries that are equal on the wire, name by name, are equal. -/
theorem corresponds_of_wires {entries others : List (String × Value)}
    {sent : List (String × Json)} (parts : Entries.Aligned Wires entries members)
    (distinct : Entries.Distinct entries) (partsOther : Entries.Aligned Wires others sent)
    (alike : Entries.Corresponds Json.Same members sent)
    (step : ∀ name value other part partOther, Entries.get? entries name = some value →
      Entries.get? others name = some other → Wires value part → Wires other partOther →
      Json.Same part partOther → Same value other) : Entries.Corresponds Same entries others := by
  have back : Entries.Aligned (fun document value => Wires value document) sent others :=
    Paired.symm partsOther fun _ _ _ _ step => ⟨step.1.symm, step.2⟩
  refine ⟨?_, fun entry held => ?_⟩
  · rw [parts.length_eq, alike.1, partsOther.length_eq]
  · have found := Entries.get?_of_mem distinct held
    obtain ⟨part, there, wires⟩ := parts.get? found
    obtain ⟨partOther, thereOther, same⟩ := alike.get? there
    obtain ⟨other, foundOther, wiresOther⟩ := back.get? thereOther
    exact ⟨other, foundOther, step _ _ _ _ _ found foundOther wires wiresOther same⟩

end Wired

/-- Values under one shape that are equal on the wire are equal. -/
theorem Static.same_of_wires {value other : Value} {shape : Shape} {sent sentOther : Json}
    (fixed : Static value shape) (fixedOther : Static other shape) (wires : Wires value sent)
    (wiresOther : Wires other sentOther) (alike : Json.Same sent sentOther) : Same value other := by
  induction value generalizing other shape sent sentOther with
  | null declared =>
    obtain rfl := (wires_null _ _).1 wires
    obtain rfl := (Json.null_same _).1 alike
    obtain ⟨again, rfl⟩ := wiresOther.of_null
    have turned := Shape.beq_symm ((wellFormed_null _).1 fixedOther.formed) fixedOther.same
    exact .null (Shape.beq_trans fixed.same turned)
  | unknown declared => simpa [wireValue] using wires .root
  | text known =>
    obtain rfl := (wires_text _ _).1 wires
    obtain rfl := (Json.text_same _ _).1 alike
    obtain rfl := wiresOther.of_text
    exact .text known
  | bool known =>
    obtain rfl := (wires_bool _ _).1 wires
    obtain rfl := (Json.bool_same _ _).1 alike
    obtain rfl := wiresOther.of_bool
    exact .bool known
  | number known =>
    obtain ⟨number, exactly, rfl⟩ := (wires_number _ _).1 wires
    obtain ⟨numberOther, rfl, same⟩ := (Json.number_same _ _).1 alike
    obtain rfl := wiresOther.of_number
    rw [← same.ofJson_eq, Decimal.ofJson_of_toJson? exactly]
    exact .number known
  | list element items ih =>
    obtain ⟨documents, parts, rfl⟩ := (wires_list _ _ _).1 wires
    obtain ⟨others, rfl, pairs⟩ := (Json.array_same _ _).1 alike
    obtain ⟨inner, rfl, _, equal, each⟩ := fixed.list
    obtain ⟨again, itemsOther, rfl, partsOther, equalOther, eachOther⟩ :=
      fixedOther.of_list wiresOther
    have turned := Shape.beq_symm ((wellFormed_list _ _).1 fixedOther.formed).1 equalOther
    refine .list (Shape.beq_trans equal turned) ?_
    exact Paired.across parts partsOther pairs fun item held other there _ _ wires same sent =>
      ih item held (each item held) (eachOther other there) wires sent same
  | set element items ih =>
    obtain ⟨documents, parts, rfl⟩ := (wires_set _ _ _).1 wires
    obtain ⟨others, rfl, pairs⟩ := (Json.array_same _ _).1 alike
    obtain ⟨inner, rfl, _, equal, each⟩ := fixed.set
    obtain ⟨again, itemsOther, rfl, partsOther, equalOther, eachOther⟩ :=
      fixedOther.of_set wiresOther
    have turned := Shape.beq_symm ((wellFormed_set _ _).1 fixedOther.formed).1 equalOther
    refine .set (Shape.beq_trans equal turned) ?_ (.refl _)
    exact Paired.across parts partsOther pairs fun item held other there _ _ wires same sent =>
      ih item held (each item held) (eachOther other there) wires sent same
  | tuple items ih =>
    obtain ⟨documents, parts, rfl⟩ := (wires_tuple _ _).1 wires
    obtain ⟨others, rfl, pairs⟩ := (Json.array_same _ _).1 alike
    obtain ⟨slots, rfl, each⟩ := fixed.tuple
    obtain ⟨itemsOther, rfl, partsOther, eachOther⟩ := fixedOther.of_tuple wiresOther
    -- each document is taken together with the slot that it stands in
    have left := Paired.zip parts each
      (T := fun item pair => Wires item pair.1 ∧ Static item pair.2)
      fun _ _ _ _ _ _ wires fixed => ⟨wires, fixed⟩
    have right := Paired.zip partsOther eachOther
      (T := fun item pair => Wires item pair.1 ∧ Static item pair.2)
      fun _ _ _ _ _ _ wires fixed => ⟨wires, fixed⟩
    refine .tuple (Paired.across left right (Paired.zip_beside pairs) ?_)
    intro item held other _ pair pairOther near same far
    exact ih item held near.2 (same.2 ▸ far.2) near.1 far.1 same.1
  | map element entries ih =>
    obtain ⟨members, parts, rfl⟩ := (wires_map _ _ _).1 wires
    obtain ⟨others, rfl, pairs⟩ := (Json.object_same _ _).1 alike
    obtain ⟨inner, rfl, _, equal, each⟩ := fixed.map
    obtain ⟨again, entriesOther, rfl, partsOther, equalOther, eachOther⟩ :=
      fixedOther.of_map wiresOther
    have turned := Shape.beq_symm ((wellFormed_map _ _).1 fixedOther.formed).1 equalOther
    have distinct := ((wellFormed_map _ _).1 fixed.formed).2.1
    refine (map_same _ _ _).2 ⟨again, entriesOther, rfl, Shape.beq_trans equal turned, ?_⟩
    refine corresponds_of_wires parts distinct partsOther pairs ?_
    intro name value other part partOther found foundOther wires sent same
    have held := Entries.mem_of_get? found
    exact ih _ held (each _ held) (eachOther _ (Entries.mem_of_get? foundOther)) wires sent same
  | object entries ih =>
    obtain ⟨members, parts, rfl⟩ := (wires_object _ _).1 wires
    obtain ⟨others, rfl, pairs⟩ := (Json.object_same _ _).1 alike
    obtain ⟨attributes, rfl, order, each⟩ := fixed.object
    obtain ⟨entriesOther, rfl, partsOther, eachOther⟩ := fixedOther.of_object wiresOther
    have distinct := ((wellFormed_object _).1 fixed.formed).1
    refine (object_same _ _).2 ⟨entriesOther, rfl, ?_⟩
    refine corresponds_of_wires parts distinct partsOther pairs ?_
    intro name value other part partOther found foundOther wires sent same
    have held := Entries.mem_of_get? found
    obtain ⟨slot, declared⟩ := Entries.exists_get?_of_perm order held
    exact ih _ held (each _ held slot declared)
      (eachOther _ (Entries.mem_of_get? foundOther) slot declared) wires sent same

/-! ## Decoding -/

/--
The value part of the wire form of a value that conforms and has no `dynamic` in its shape converts,
under that shape and at every path, to an equal value. Two such values are equal when their wire
forms are equal documents.
-/
theorem ofJson_wire {value : Value} {sent : Json} (formed : value.WellFormed)
    (conforms : value.conforms = true) (static : value.shape.hasDynamic = false)
    (encoded : encode value = .ok sent) :
    (∃ part, sent.member? "value" = some part ∧
      ∀ path, ∃ back, ofJson part value.shape path = .ok back ∧ back == value) ∧
    ∀ other sentOther, other.WellFormed → other.conforms = true →
      other.shape.hasDynamic = false → encode other = .ok sentOther →
      Json.Same sent sentOther → value == other := by
  obtain ⟨part, wires, rfl⟩ := encode_ok.1 encoded
  have fixed : Static value value.shape := ⟨formed, conforms, static, Shape.beq_refl formed.shape⟩
  refine ⟨⟨part, by simp [Json.member?, Entries.get?], fun path => ?_⟩, ?_⟩
  · obtain ⟨back, read, same⟩ := fixed.readsBack wires
    have backFormed := read.wellFormed (wires.wellFormed formed) formed.shape
    exact ⟨back, read path, (beq_iff_same backFormed formed).2 (same.symm formed backFormed)⟩
  · intro other sentOther formedOther conformsOther staticOther encodedOther alike
    obtain ⟨partOther, wiresOther, rfl⟩ := encode_ok.1 encodedOther
    obtain ⟨members, written, pairs⟩ := (Json.object_same _ _).1 alike
    obtain rfl := Json.object.inj written
    have shapes : Json.Same value.shape.toJson other.shape.toJson := by
      simpa [Entries.get?] using pairs.2 ("type", value.shape.toJson) (by simp)
    have parts : Json.Same part partOther := by
      simpa [Entries.get?] using pairs.2 ("value", part) (by simp)
    have equal := Shape.beq_symm formed.shape (Shape.beq_of_toJson_same shapes)
    have fixedOther : Static other value.shape := ⟨formedOther, conformsOther, staticOther, equal⟩
    have same := fixed.same_of_wires fixedOther wires wiresOther parts
    exact (beq_iff_same formed formedOther).2 same

/-- A host's record: no note, a null in a set, an empty list in the one slot of a tuple. -/
def station : Value :=
  .object [("note", .null .string), ("tags", .set .string [.text "b", .null .string]),
    ("only", .tuple [.list .bool []]),
    ("levels", .map (.list .number)
      [("low", .list .number [.number ⟨false, 3, 0, by decide⟩]), ("high", .null (.list .number))])]

/-- The record with its entries, and those of the map in it, in another order. -/
def stationTurned : Value :=
  .object [
    ("levels", .map (.list .number)
      [("high", .null (.list .number)), ("low", .list .number [.number ⟨false, 3, 0, by decide⟩])]),
    ("only", .tuple [.list .bool []]), ("note", .null .string),
    ("tags", .set .string [.text "b", .null .string])]

/-- The wire form of the record. -/
def stationWire : Json :=
  .object [("type", station.shape.toJson), ("value",
    .object [("note", .null), ("tags", .array [.text "b", .null]), ("only", .array [.array []]),
      ("levels", .object [("low", .array [.number (.int 3)]), ("high", .null)])])]

/-- The wire form of the record in the other order. -/
def stationTurnedWire : Json :=
  .object [("type", stationTurned.shape.toJson), ("value",
    .object [("levels", .object [("high", .null), ("low", .array [.number (.int 3)])]),
      ("only", .array [.array []]), ("note", .null), ("tags", .array [.text "b", .null])])]

/-- The record is decoded from its wire form, and is equal to the one in the other order. -/
theorem station_decoded :
    (∃ part, stationWire.member? "value" = some part ∧
      ∀ path, ∃ back, ofJson part station.shape path = .ok back ∧ back == station) ∧
    station == stationTurned := by
  have formed : station.WellFormed := by simp [station, Entries.Distinct]
  have formedTurned : stationTurned.WellFormed := by simp [stationTurned, Entries.Distinct]
  have encoded : encode station = .ok stationWire := by cbv
  have encodedTurned : encode stationTurned = .ok stationTurnedWire := by cbv
  have number : Json.Same (.number (.int 3)) (.number (.int 3)) := .number (.refl _)
  have alike : Json.Same stationWire stationTurnedWire := by
    simp [stationWire, stationTurnedWire, station, stationTurned, Json.object_same, Json.array_same,
      Entries.Corresponds, Entries.get?, Shape.toJson, Shape.slotsToJson, Shape.attributesToJson,
      number]
  have decoded := ofJson_wire formed (by decide) (by decide) encoded
  exact ⟨decoded.1, decoded.2 _ _ formedTurned (by decide) (by decide) encodedTurned alike⟩

end TypedTree.Value
