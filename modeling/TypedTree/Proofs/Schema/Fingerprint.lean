import Mathlib
import TypedTree.Proofs.Schema.Agreement
import TypedTree.Proofs.Text.Bytes
import TypedTree.Schema.Fingerprint

/-!
# What fingerprints tell apart

Nodes that agree have the same fingerprint. Conversely a fingerprint is read back field by field:
each field begins with its tag, and what follows a field begins with a larger one, so it is seen
whether the field is there; texts and nodes end where they are seen to end. One field has two
meanings, though: what may stand beyond the properties is a flag or a node, and the byte of a flag
that is set is the tag of a reference. The two are told apart by what follows, the tag of a later
field or the first byte of the reference, unless the reference begins with such a byte.
-/

namespace TypedTree.Schema

/-! ## Texts and fields -/

/-- What stands before the first of some marks, and what stands behind it. -/
theorem append_mark_inj {mark : UInt8} {xs ys rest others : List UInt8} (left : mark ∉ xs)
    (right : mark ∉ ys) (same : xs ++ mark :: rest = ys ++ mark :: others) :
    xs = ys ∧ rest = others := by
  rcases List.append_eq_append_iff.1 same with ⟨more, rfl, split⟩ | ⟨more, rfl, split⟩
  all_goals
    cases more with
    | nil => simp_all
    | cons first more =>
      rw [List.cons_append, List.cons.injEq] at split
      simp [← split.1] at left right

/-- A text is read back from its bytes, whatever follows. -/
theorem textBytes_append_inj {a b : String} {rest others : List UInt8}
    (same : textBytes a ++ rest = textBytes b ++ others) : a = b ∧ rest = others := by
  simp only [textBytes, List.append_assoc, List.singleton_append] at same
  have split := append_mark_inj (Text.notMem_bytes a) (Text.notMem_bytes b) same
  exact ⟨Text.eq_of_bytes_eq split.1, split.2⟩

/-- The bytes of values that each stand behind one tag. -/
def fieldBytes {α : Type} (tag : UInt8) (bytes : α → List UInt8) (values : List α) : List UInt8 :=
  values.flatMap fun value => tag :: bytes value

/-- Some bytes begin with the tag of a field behind that of a given tag. -/
def Behind (tag : UInt8) (bytes : List UInt8) : Prop :=
  ∃ next rest, bytes = next :: rest ∧ tag < next ∧ next ≤ 8

namespace Behind

variable {α : Type} {tag own : UInt8} {rest others : List UInt8}

/-- What is behind a field is behind the ones before it. -/
theorem mono (behind : Behind own rest) (later : tag ≤ own) : Behind tag rest := by
  obtain ⟨next, others, same, above, small⟩ := behind
  exact ⟨next, others, same, UInt8.lt_of_le_of_lt later above, small⟩

/-- A field stands behind those of smaller tags. -/
theorem cons (later : tag < own) (field : own ≤ 8) : Behind tag (own :: rest) :=
  ⟨own, rest, rfl, later, field⟩

/-- A field and what is behind it stand behind those of smaller tags, also where it is missing. -/
theorem fieldBytes (behind : Behind own rest) (bytes : α → List UInt8) (values : List α)
    (later : tag < own) (field : own ≤ 8) :
    Behind tag (fieldBytes own bytes values ++ rest) := by
  cases values with
  | nil => exact behind.mono (UInt8.le_of_lt later)
  | cons value values => exact cons later field

/-- What is behind a field does not begin with its tag. -/
theorem ne_cons (behind : Behind tag rest) : rest ≠ tag :: others := by
  rintro rfl
  obtain ⟨next, more, same, above, _⟩ := behind
  obtain rfl := (List.cons.inj same).1
  exact UInt8.lt_irrefl _ above

end Behind

/-- The values of a field are read back one by one when each of them is. -/
theorem fieldBytes_append_inj {α β : Type} {tag : UInt8} {left : α → List UInt8}
    {right : β → List UInt8} {R : α → β → Prop} {as : List α} {bs : List β}
    {rest others : List UInt8}
    (each : ∀ a ∈ as, ∀ b ∈ bs, ∀ rest others, left a ++ rest = right b ++ others →
      R a b ∧ rest = others)
    (behind : Behind tag rest) (behindOther : Behind tag others)
    (same : fieldBytes tag left as ++ rest = fieldBytes tag right bs ++ others) :
    List.Forall₂ R as bs ∧ rest = others := by
  induction as generalizing bs with
  | nil =>
    cases bs with
    | nil => exact ⟨.nil, same⟩
    | cons b bs => exact absurd same behind.ne_cons
  | cons a as ih =>
    cases bs with
    | nil => exact absurd same.symm behindOther.ne_cons
    | cons b bs =>
      simp only [fieldBytes, List.flatMap_cons, List.cons_append, List.append_assoc,
        List.cons.injEq, true_and] at same
      obtain ⟨first, same⟩ := each a List.mem_cons_self b List.mem_cons_self _ _ same
      obtain ⟨paired, same⟩ := ih (fun a held b there => each a (List.mem_cons_of_mem _ held) b
        (List.mem_cons_of_mem _ there)) same
      exact ⟨.cons first paired, same⟩

/-- An optional value is read back when a present one is. -/
theorem optional_append_inj {α β : Type} {tag : UInt8} {left : α → List UInt8}
    {right : β → List UInt8} {R : α → β → Prop} {a : Option α} {b : Option β}
    {rest others : List UInt8}
    (each : ∀ x, a = some x → ∀ y, b = some y → ∀ rest others, left x ++ rest = right y ++ others →
      R x y ∧ rest = others)
    (behind : Behind tag rest) (behindOther : Behind tag others)
    (same : fieldBytes tag left a.toList ++ rest = fieldBytes tag right b.toList ++ others) :
    Option.Rel R a b ∧ rest = others := by
  obtain ⟨paired, same⟩ := fieldBytes_append_inj (R := R) (fun x held y there =>
    each x (Option.mem_toList.1 held) y (Option.mem_toList.1 there)) behind behindOther same
  refine ⟨?_, same⟩
  cases a <;> cases b <;> cases paired
  · exact .none
  · exact .some ‹_›

/-- Flags are read back from their bytes. -/
theorem flagByte_inj {p q : Bool} : flagByte p = flagByte q ↔ p = q := by
  cases p <;> cases q <;> decide

/-! ## The fields of a node -/

/-- The name and the fingerprint of a property. -/
def namedBytes (property : String × Node) : List UInt8 :=
  textBytes property.1 ++ property.2.fingerprint

/-- Properties in the order of their names. -/
def byName {α : Type} (properties : List (String × α)) : List (String × α) :=
  properties.mergeSort fun a b => decide (a.1 ≤ b.1)

namespace Node

/-- The flags of a node and what follows the node. -/
def fromFlags (node : Node) (rest : List UInt8) : List UInt8 :=
  8 :: flagByte node.intOrString :: flagByte node.preserveUnknown :: endMark :: rest

/-- The fields of a node from its members on, and what follows the node. -/
def fromMembers (node : Node) (rest : List UInt8) : List UInt8 :=
  fieldBytes 7 fingerprint node.allOf ++ node.fromFlags rest

/-- The fields of a node from what stands beyond its properties on, and what follows the node. -/
def fromAdditional (node : Node) (rest : List UInt8) : List UInt8 :=
  additionalBytes node.additionalProperties ++ node.fromMembers rest

/-- The fields of a node from its properties on, and what follows the node. -/
def fromProperties (node : Node) (rest : List UInt8) : List UInt8 :=
  fieldBytes 5 namedBytes (byName node.properties) ++ node.fromAdditional rest

/-- The fields of a node from its additional items on, and what follows the node. -/
def fromAdditionalItems (node : Node) (rest : List UInt8) : List UInt8 :=
  fieldBytes 4 fingerprint node.additionalItems.toList ++ node.fromProperties rest

/-- The fields of a node from its items on, and what follows the node. -/
def fromItems (node : Node) (rest : List UInt8) : List UInt8 :=
  fieldBytes 3 fingerprint node.items.toList ++ node.fromAdditionalItems rest

/-- The fields of a node from its type on, and what follows the node. -/
def fromKind (node : Node) (rest : List UInt8) : List UInt8 :=
  fieldBytes 2 textBytes node.declaredKind?.toList ++ node.fromItems rest

/-- The fields of a node from its reference on, and what follows the node. -/
def fromReference (node : Node) (rest : List UInt8) : List UInt8 :=
  fieldBytes 1 textBytes node.reference.toList ++ node.fromKind rest

theorem taggedText_eq (tag : UInt8) (text : Option String) :
    taggedText tag text = fieldBytes tag textBytes text.toList := by
  cases text <;> simp [taggedText, fieldBytes]

theorem partBytes_eq (tag : UInt8) (part : Option Node) :
    partBytes tag part = fieldBytes tag fingerprint part.toList := by
  cases part <;> simp [partBytes, fieldBytes]

theorem memberBytes_eq (members : List Node) :
    memberBytes members = fieldBytes 7 fingerprint members := by
  induction members with
  | nil => rfl
  | cons member members ih =>
    simp only [memberBytes, ih, fieldBytes, List.flatMap_cons, List.cons_append]

theorem propertyPrints_eq (properties : List (String × Node)) :
    propertyPrints properties = properties.map fun property =>
      (property.1, property.2.fingerprint) := by
  induction properties with
  | nil => rfl
  | cons property properties ih => rw [propertyPrints, ih, List.map_cons]

/-- Properties are spelled in the order of their names. -/
theorem propertyBytes_eq (properties : List (String × Node)) :
    propertyBytes (propertyPrints properties) = fieldBytes 5 namedBytes (byName properties) := by
  rw [propertyBytes, propertyPrints_eq, fieldBytes, byName,
    ← List.map_mergeSort (r := fun a b => decide (a.1 ≤ b.1)) fun _ _ _ _ => rfl, List.flatMap_map]
  rfl

/-- A fingerprint is the fields of its node, from the first one on. -/
theorem fingerprint_append (node : Node) (rest : List UInt8) :
    node.fingerprint ++ rest = node.fromReference rest := by
  obtain ⟨reference, kind, format, items, additionalItems, properties, additionalProperties, allOf,
    intOrString, preserveUnknown, kinds⟩ := node
  simp only [fingerprint, taggedText_eq, partBytes_eq, propertyBytes_eq, memberBytes_eq,
    List.append_assoc]
  rfl

/-! What follows a field begins with the tag of a later one. -/

theorem behind_fromFlags (node : Node) (rest : List UInt8) : Behind 7 (node.fromFlags rest) :=
  .cons (by decide) (by decide)

theorem behind_fromMembers (node : Node) (rest : List UInt8) : Behind 6 (node.fromMembers rest) :=
  (node.behind_fromFlags rest).fieldBytes _ _ (by decide) (by decide)

theorem behind_fromAdditional (node : Node) (rest : List UInt8) :
    Behind 5 (node.fromAdditional rest) := by
  unfold fromAdditional
  cases node.additionalProperties with
  | none => exact (node.behind_fromMembers rest).mono (by decide)
  | some additional => cases additional <;> exact .cons (by decide) (by decide)

theorem behind_fromProperties (node : Node) (rest : List UInt8) :
    Behind 4 (node.fromProperties rest) :=
  (node.behind_fromAdditional rest).fieldBytes _ _ (by decide) (by decide)

theorem behind_fromAdditionalItems (node : Node) (rest : List UInt8) :
    Behind 3 (node.fromAdditionalItems rest) :=
  (node.behind_fromProperties rest).fieldBytes _ _ (by decide) (by decide)

theorem behind_fromItems (node : Node) (rest : List UInt8) : Behind 2 (node.fromItems rest) :=
  (node.behind_fromAdditionalItems rest).fieldBytes _ _ (by decide) (by decide)

theorem behind_fromKind (node : Node) (rest : List UInt8) : Behind 1 (node.fromKind rest) :=
  (node.behind_fromItems rest).fieldBytes _ _ (by decide) (by decide)

theorem behind_fromReference (node : Node) (rest : List UInt8) :
    Behind 0 (node.fromReference rest) :=
  (node.behind_fromKind rest).fieldBytes _ _ (by decide) (by decide)

end Node

/-! ## Reading a fingerprint back -/

/--
A reference that begins with a character whose code is the tag of members or flags, the fields that
may follow what stands beyond the properties.
-/
def BeginsWithTag (reference : String) : Prop :=
  ∃ c, reference.toList.head? = some c ∧ 6 < c.toNat ∧ c.toNat ≤ 8

/-- No schema of values beyond the properties begins with such a reference, at any depth. -/
inductive Node.Legible : Node → Prop
  | intro {node : Node} (items : ∀ part, node.items = some part → Legible part)
      (additionalItems : ∀ part, node.additionalItems = some part → Legible part)
      (properties : ∀ entry ∈ node.properties, Legible entry.2)
      (values : ∀ part, node.additionalProperties = some (.schema part) → Legible part)
      (references : ∀ part reference, node.additionalProperties = some (.schema part) →
        part.reference = some reference → ¬ BeginsWithTag reference)
      (members : ∀ part ∈ node.allOf, Legible part) : Legible node

namespace Node.Legible

variable {node part : Node}

/-- The item schema of a legible node is legible. -/
theorem items (legible : node.Legible) (said : node.items = some part) : part.Legible := by
  cases legible with
  | intro items => exact items part said

/-- The schema for items of any position is legible. -/
theorem additionalItems (legible : node.Legible) (said : node.additionalItems = some part) :
    part.Legible := by
  cases legible with
  | intro _ additionalItems => exact additionalItems part said

/-- The schemas of properties are legible. -/
theorem property (legible : node.Legible) {entry : String × Node}
    (held : entry ∈ node.properties) : entry.2.Legible := by
  cases legible with
  | intro _ _ properties => exact properties entry held

/-- The schema of values beyond the properties is legible. -/
theorem values (legible : node.Legible) (said : node.additionalProperties = some (.schema part)) :
    part.Legible := by
  cases legible with
  | intro _ _ _ values => exact values part said

/-- The schema of values beyond the properties has no reference that begins with a tag. -/
theorem reference (legible : node.Legible) (part : Node) (reference : String)
    (said : node.additionalProperties = some (.schema part)) :
    part.reference = some reference → ¬ BeginsWithTag reference := by
  cases legible with
  | intro _ _ _ _ references => exact references part reference said

/-- The members of `allOf` are legible. -/
theorem member (legible : node.Legible) (held : part ∈ node.allOf) : part.Legible := by
  cases legible with
  | intro _ _ _ _ _ members => exact members part held

end Node.Legible

/-- A text that begins with the tag of a late field begins with the character of that code. -/
theorem beginsWithTag_of_behind {reference : String} {rest : List UInt8}
    (behind : Behind 6 (textBytes reference ++ rest)) : BeginsWithTag reference := by
  obtain ⟨next, others, same, above, small⟩ := behind
  have above := UInt8.lt_iff_toNat_lt.1 above
  have small := UInt8.le_iff_toNat_le.1 small
  simp only [textBytes, List.append_assoc, List.singleton_append] at same
  cases bytes : reference.toUTF8.toList with
  | nil =>
    rw [bytes, List.nil_append, List.cons.injEq] at same
    rw [← same.1] at small
    exact absurd small (by decide)
  | cons first more =>
    rw [bytes, List.cons_append, List.cons.injEq] at same
    obtain ⟨rfl, _⟩ := same
    obtain ⟨c, begins, code⟩ := Text.exists_first bytes (UInt8.lt_iff_toNat_lt.2 (by
      simp at small ⊢
      omega))
    exact ⟨c, begins, by simpa [code] using above, by simpa [code] using small⟩

/-- A flag and a node are told apart by what follows, unless the node has such a reference. -/
theorem flag_ne_fingerprint {permitted : Bool} {part : Node} {rest others : List UInt8}
    (legible : ∀ reference, part.reference = some reference → ¬ BeginsWithTag reference)
    (behind : Behind 6 rest) : flagByte permitted :: rest ≠ part.fingerprint ++ others := by
  rw [Node.fingerprint_append]
  intro same
  cases permitted with
  | false => exact (part.behind_fromReference others).ne_cons same.symm
  | true =>
    unfold Node.fromReference at same
    cases said : part.reference with
    | none =>
      rw [said] at same
      exact (part.behind_fromKind others).ne_cons same.symm
    | some reference =>
      simp only [said, Option.toList_some, fieldBytes, List.flatMap_singleton, List.cons_append,
        List.cons.injEq] at same
      rw [same.2] at behind
      exact legible reference said (beginsWithTag_of_behind behind)

/-- What may stand beyond the properties is read back when a node there is. -/
theorem additional_append_inj {a b : Option (Additional Node)} {rest others : List UInt8}
    (each : ∀ x, a = some (.schema x) → ∀ y, b = some (.schema y) → ∀ rest others,
      x.fingerprint ++ rest = y.fingerprint ++ others → x.Agrees y ∧ rest = others)
    (left : ∀ part reference, a = some (.schema part) → part.reference = some reference →
      ¬ BeginsWithTag reference)
    (right : ∀ part reference, b = some (.schema part) → part.reference = some reference →
      ¬ BeginsWithTag reference)
    (behind : Behind 6 rest) (behindOther : Behind 6 others)
    (same : Node.additionalBytes a ++ rest = Node.additionalBytes b ++ others) :
    Option.Rel (Additional.Agrees Node.Agrees) a b ∧ rest = others := by
  match a, b with
  | none, none => exact ⟨.none, same⟩
  | none, some (.allowed _) | none, some (.schema _) => exact absurd same behind.ne_cons
  | some (.allowed _), none | some (.schema _), none => exact absurd same.symm behindOther.ne_cons
  | some (.allowed p), some (.allowed q) =>
    obtain ⟨flag, after⟩ := List.cons.inj (List.cons.inj same).2
    obtain rfl := flagByte_inj.1 flag
    exact ⟨.some (.allowed p), after⟩
  | some (.allowed p), some (.schema part) =>
    exact absurd (List.cons.inj same).2
      (flag_ne_fingerprint (fun reference => right part reference rfl) behind)
  | some (.schema part), some (.allowed p) =>
    exact absurd (List.cons.inj same).2.symm
      (flag_ne_fingerprint (fun reference => left part reference rfl) behindOther)
  | some (.schema x), some (.schema y) =>
    obtain ⟨agree, same⟩ := each x rfl y rfl _ _ (List.cons.inj same).2
    exact ⟨.some (.schema agree), same⟩

/-- Properties are read back, in whatever order they stand, when the node of each of them is. -/
theorem properties_append_inj {as bs : List (String × Node)} {rest others : List UInt8}
    (each : ∀ a ∈ as, ∀ b ∈ bs, ∀ rest others,
      a.2.fingerprint ++ rest = b.2.fingerprint ++ others → a.2.Agrees b.2 ∧ rest = others)
    (distinct : Entries.Distinct as) (distinctOther : Entries.Distinct bs)
    (behind : Behind 5 rest) (behindOther : Behind 5 others)
    (same : fieldBytes 5 namedBytes (byName as) ++ rest =
      fieldBytes 5 namedBytes (byName bs) ++ others) :
    Entries.Corresponds Node.Agrees as bs ∧ rest = others := by
  have left : (byName as).Perm as := List.mergeSort_perm _ _
  have right : (byName bs).Perm bs := List.mergeSort_perm _ _
  obtain ⟨aligned, same⟩ := fieldBytes_append_inj
    (R := fun a b : String × Node => a.1 = b.1 ∧ a.2.Agrees b.2)
    (fun a held b there rest others same => by
      simp only [namedBytes, List.append_assoc] at same
      obtain ⟨name, same⟩ := textBytes_append_inj same
      obtain ⟨agree, same⟩ := each a (left.mem_iff.1 held) b (right.mem_iff.1 there) _ _ same
      exact ⟨⟨name, agree⟩, same⟩) behind behindOther same
  have arranged : Entries.Distinct (byName as) := (left.map Prod.fst).nodup_iff.2 distinct
  exact ⟨Entries.Aligned.corresponds_of_perm aligned left right arranged distinctOther, same⟩

/-- Optional values of which the present ones are equal are equal. -/
theorem eq_of_rel {α : Type} {a b : Option α} (equal : Option.Rel Eq a b) : a = b := by
  cases equal with
  | none => rfl
  | some same => rw [same]

/-- A node is read back from its fingerprint, whatever follows, up to what does not matter. -/
theorem Node.WellFormed.agrees_of_append {a b : Node} (formed : a.WellFormed) (other : b.WellFormed)
    (legible : a.Legible) (legibleOther : b.Legible) {rest others : List UInt8}
    (same : a.fingerprint ++ rest = b.fingerprint ++ others) : a.Agrees b ∧ rest = others := by
  induction formed generalizing b rest others with
  | @intro a distinct _ _ _ _ _ items additionalItems properties values members =>
    rw [fingerprint_append, fingerprint_append] at same
    -- the fields are read in their order, each up to where the next one begins
    obtain ⟨reference, same⟩ := optional_append_inj (R := Eq)
      (fun _ _ _ _ _ _ => textBytes_append_inj)
      (a.behind_fromKind rest) (b.behind_fromKind others) same
    obtain ⟨kind, same⟩ := optional_append_inj (R := Eq)
      (fun _ _ _ _ _ _ => textBytes_append_inj)
      (a.behind_fromItems rest) (b.behind_fromItems others) same
    obtain ⟨items, same⟩ := optional_append_inj
      (fun x said y there _ _ => items x said (other.items there) (legible.items said)
        (legibleOther.items there))
      (a.behind_fromAdditionalItems rest) (b.behind_fromAdditionalItems others) same
    obtain ⟨additionalItems, same⟩ := optional_append_inj
      (fun x said y there _ _ => additionalItems x said (other.additionalItems there)
        (legible.additionalItems said) (legibleOther.additionalItems there))
      (a.behind_fromProperties rest) (b.behind_fromProperties others) same
    obtain ⟨properties, same⟩ := properties_append_inj
      (fun x held y there _ _ => properties x held (other.property there)
        (legible.property held) (legibleOther.property there))
      distinct other.distinct (a.behind_fromAdditional rest) (b.behind_fromAdditional others) same
    obtain ⟨additional, same⟩ := additional_append_inj
      (fun x said y there _ _ => values x said (other.values there) (legible.values said)
        (legibleOther.values there))
      legible.reference legibleOther.reference
      (a.behind_fromMembers rest) (b.behind_fromMembers others) same
    obtain ⟨members, same⟩ := fieldBytes_append_inj
      (fun x held y there _ _ => members x held (other.member there) (legible.member held)
        (legibleOther.member there))
      (a.behind_fromFlags rest) (b.behind_fromFlags others) same
    simp only [fromFlags, List.cons.injEq, true_and, flagByte_inj] at same
    obtain ⟨intOrString, preserveUnknown, same⟩ := same
    obtain ⟨size, names, properties⟩ := Entries.corresponds_iff.1 properties
    exact ⟨.intro (eq_of_rel reference) (eq_of_rel kind) items additionalItems size names properties
      additional members intOrString preserveUnknown, same⟩

/-- Legible nodes of one fingerprint agree. -/
theorem Node.WellFormed.agrees_of_fingerprint {a b : Node} (formed : a.WellFormed)
    (other : b.WellFormed) (legible : a.Legible) (legibleOther : b.Legible)
    (same : a.fingerprint = b.fingerprint) : a.Agrees b := by
  have appended : a.fingerprint ++ [] = b.fingerprint ++ [] := by rw [same]
  exact (formed.agrees_of_append other legible legibleOther appended).1

/-! ## Nodes that agree -/

/-- The bytes of properties do not depend on their order. -/
theorem propertyBytes_perm {as bs : List (String × List UInt8)} (arranged : as.Perm bs)
    (distinct : Entries.Distinct as) : propertyBytes as = propertyBytes bs := by
  have sorted (properties : List (String × List UInt8)) :
      (properties.mergeSort fun a b => decide (a.1 ≤ b.1)).Pairwise fun a b => a.1 ≤ b.1 := by
    have ordered : (properties.mergeSort fun a b => decide (a.1 ≤ b.1)).Pairwise
        fun a b => decide (a.1 ≤ b.1) = true :=
      List.pairwise_mergeSort (by simpa using fun _ _ _ => String.le_trans)
        (by simpa using fun _ _ => String.le_total _ _) properties
    simpa using ordered
  have same : (as.mergeSort fun a b => decide (a.1 ≤ b.1)) =
      bs.mergeSort fun a b => decide (a.1 ≤ b.1) := by
    refine List.Perm.eq_of_pairwise (fun a b left right below above => ?_) (sorted as) (sorted bs)
      ((List.mergeSort_perm as _).trans (arranged.trans (List.mergeSort_perm bs _).symm))
    have left := (List.mergeSort_perm as _).mem_iff.1 left
    have right := arranged.mem_iff.2 ((List.mergeSort_perm bs _).mem_iff.1 right)
    exact List.inj_on_of_nodup_map distinct left right (String.le_antisymm below above)
  rw [propertyBytes, propertyBytes, same]

/-- Properties whose nodes have the same fingerprints are spelled alike. -/
theorem propertyBytes_of_corresponds {as bs : List (String × Node)}
    (matching : Entries.Corresponds (fun a b => a.fingerprint = b.fingerprint) as bs)
    (distinct : Entries.Distinct as) :
    propertyBytes (Node.propertyPrints as) = propertyBytes (Node.propertyPrints bs) := by
  obtain ⟨arranged, aligned, moved⟩ := matching.exists_aligned distinct
  have same : Node.propertyPrints as = Node.propertyPrints arranged := by
    rw [Node.propertyPrints_eq, Node.propertyPrints_eq, ← List.forall₂_eq_eq_eq,
      List.forall₂_map_left_iff, List.forall₂_map_right_iff]
    exact aligned.imp fun a b both => Prod.ext both.1 both.2
  have names : Entries.Distinct (Node.propertyPrints arranged) := by
    rw [Entries.Distinct, Node.propertyPrints_eq, Entries.keys_map, ← aligned.keys_eq]
    exact distinct
  rw [same]
  refine propertyBytes_perm ?_ names
  rw [Node.propertyPrints_eq, Node.propertyPrints_eq]
  exact moved.map _

/-- Values with the same bytes one by one make the same field. -/
theorem fieldBytes_congr {α : Type} {tag : UInt8} {bytes : α → List UInt8} {as bs : List α}
    (same : List.Forall₂ (fun a b => bytes a = bytes b) as bs) :
    fieldBytes tag bytes as = fieldBytes tag bytes bs := by
  induction same with
  | nil => rfl
  | cons first _ ih =>
    rw [fieldBytes, List.flatMap_cons, first, ← fieldBytes, ih]
    rfl

/-- Optional nodes make the same field when present ones have the same fingerprint. -/
theorem optional_congr {tag : UInt8} {a b : Option Node} (agree : Option.Rel Node.Agrees a b)
    (each : ∀ x, a = some x → ∀ {y}, x.Agrees y → x.fingerprint = y.fingerprint) :
    fieldBytes tag Node.fingerprint a.toList = fieldBytes tag Node.fingerprint b.toList := by
  cases agree with
  | none => rfl
  | some agree => exact fieldBytes_congr (.cons (each _ rfl agree) .nil)

/-- What may stand beyond the properties makes the same field when a node there does. -/
theorem additional_congr {a b : Option (Additional Node)}
    (agree : Option.Rel (Additional.Agrees Node.Agrees) a b)
    (each : ∀ x, a = some (.schema x) → ∀ {y}, x.Agrees y → x.fingerprint = y.fingerprint) :
    Node.additionalBytes a = Node.additionalBytes b := by
  cases agree with
  | none => rfl
  | some agree =>
    cases agree with
    | allowed permitted => rfl
    | schema agree => simp only [Node.additionalBytes, each _ rfl agree]

/-- Nodes that agree have the same fingerprint. -/
theorem Node.Agrees.fingerprint_eq {a b : Node} (agree : a.Agrees b) (formed : a.WellFormed) :
    a.fingerprint = b.fingerprint := by
  induction formed generalizing b with
  | @intro a distinct _ _ _ _ _ items additionalItems properties values members =>
    have named := propertyBytes_of_corresponds (agree.properties.imp fun entry held _ _ agree =>
      properties entry held agree) distinct
    rw [propertyBytes_eq, propertyBytes_eq] at named
    cases agree with
    | intro reference kind itemsAgree additionalAgree _ _ _ valuesAgree membersAgree intOrString
        preserveUnknown =>
      have membersSame : fieldBytes 7 fingerprint a.allOf = fieldBytes 7 fingerprint b.allOf :=
        fieldBytes_congr (Paired.imp membersAgree fun x held _ _ agree => members x held agree)
      rw [← List.append_nil a.fingerprint, ← List.append_nil b.fingerprint, fingerprint_append,
        fingerprint_append]
      simp only [fromReference, fromKind, fromItems, fromAdditionalItems, fromProperties,
        fromAdditional, fromMembers, fromFlags, reference, kind, intOrString, preserveUnknown,
        named, optional_congr itemsAgree items, optional_congr additionalAgree additionalItems,
        additional_congr valuesAgree values, membersSame]

/--
Nodes that agree have the same fingerprint; and nodes with the same fingerprint agree, unless a
schema of values beyond the properties has a reference that begins with the tag of a field.
-/
theorem Node.fingerprint_tells_apart {a b : Node} (formed : a.WellFormed) (other : b.WellFormed) :
    (a.Agrees b → a.fingerprint = b.fingerprint) ∧
      (a.Legible → b.Legible → a.fingerprint = b.fingerprint → a.Agrees b) := by
  refine ⟨fun agree => agree.fingerprint_eq formed, fun legible legibleOther same => ?_⟩
  exact formed.agrees_of_fingerprint other legible legibleOther same

/-! ## A flag beside a reference -/

/-- A node that allows any value beyond its properties and has one member. -/
def openNode : Node :=
  { additionalProperties := some (.allowed true), allOf := [.ofType "x"] }

/-- The same node with an empty type and a format. -/
def noisyNode : Node := { openNode with kind := some "", format := some "int32" }

/-- A node whose values beyond its properties are what a reference names. -/
def valuesNode (reference : String) : Node :=
  { additionalProperties := some (.schema { reference := some reference }) }

theorem wellFormed_openNode : openNode.WellFormed := by
  constructor <;> simp [openNode, Node.wellFormed_ofType]

theorem wellFormed_noisyNode : noisyNode.WellFormed := by
  constructor <;> simp [noisyNode, openNode, Node.wellFormed_ofType]

theorem wellFormed_valuesNode (reference : String) : (valuesNode reference).WellFormed := by
  have plain : Node.WellFormed { reference := some reference } := by constructor <;> simp
  constructor <;> simp [valuesNode, plain]

theorem legible_openNode : openNode.Legible := by
  have plain : (Node.ofType "x").Legible := by constructor <;> simp [Node.ofType]
  constructor <;> simp [openNode, plain]

theorem legible_valuesNode {reference : String} (apart : ¬ BeginsWithTag reference) :
    (valuesNode reference).Legible := by
  have plain : Node.Legible { reference := some reference } := by constructor <;> simp
  constructor
  case references =>
    intro part own same said
    obtain rfl := Additional.schema.inj (Option.some.inj same)
    obtain rfl := Option.some.inj said
    exact apart
  all_goals simp [valuesNode, plain]

/-- Type and format of the two nodes do not matter. -/
theorem agrees_noisyNode : openNode.Agrees noisyNode :=
  .intro rfl rfl .none .none rfl (fun _ held => held) (fun _ held => nomatch held)
    (.some (.allowed true)) (.cons (Node.wellFormed_ofType "x").agrees_self .nil) rfl rfl

/-- A flag does not agree with a schema. -/
theorem not_agrees_valuesNode (reference : String) : ¬ openNode.Agrees (valuesNode reference) := by
  intro agree
  cases agree with
  | intro _ _ _ _ _ _ _ additional => exact nomatch additional

/-- A pointer does not begin with a tag, so the flag is told apart from what it points to. -/
theorem Node.openNode_told_apart :
    openNode.fingerprint = noisyNode.fingerprint ∧
      openNode.fingerprint ≠ (valuesNode "#/definitions/x").fingerprint := by
  have pointer : ¬ BeginsWithTag "#/definitions/x" := by
    rintro ⟨c, begins, _, small⟩
    obtain rfl : '#' = c := Option.some.inj begins
    exact absurd small (by decide)
  refine ⟨(fingerprint_tells_apart wellFormed_openNode wellFormed_noisyNode).1 agrees_noisyNode,
    fun same => not_agrees_valuesNode "#/definitions/x" ?_⟩
  exact (fingerprint_tells_apart wellFormed_openNode (wellFormed_valuesNode _)).2
    legible_openNode (legible_valuesNode pointer) same

/-- Beside a reference that begins with a tag, the byte of the flag is taken for the tag of it. -/
theorem Node.fingerprint_not_always_apart :
    ¬ ∀ a b : Node, a.WellFormed → b.WellFormed → (a.fingerprint = b.fingerprint ↔ a.Agrees b) := by
  intro apart
  have same : openNode.fingerprint = (valuesNode "\x07\x02x").fingerprint := by cbv
  exact not_agrees_valuesNode _
    ((apart _ _ wellFormed_openNode (wellFormed_valuesNode _)).1 same)

end TypedTree.Schema
