import TypedTree.Schema.Document

/-!
# A change of every reference in a document

A reference is changed in a document where it stands under its key, at any depth, and in its place
in a node that is written as an array. The rest of the document stays as it is, and so does
everything that makes it a document: whether it is whole, and how deep it nests.
-/

namespace TypedTree.Schema

/-- What a value of a document is, as far as references are concerned. -/
inductive Role where
  | node
  /-- An object of named nodes. -/
  | table
  /-- An array of nodes. -/
  | list
  | reference
  /-- A value in which no node stands. -/
  | other
  deriving DecidableEq

/-- What the value of a field is. -/
def Field.role : Field → Role
  | reference => .reference
  | items | additionalItems | additionalProperties => .node
  | properties => .table
  | allOf => .list
  | kind | format | intOrString | preserveUnknown | kinds => .other

namespace Role

/-- What a member of an object is; a key of a reference is one wherever it stands. -/
def member : Role → String → Role
  | node, key => ((Field.ofName? key).map Field.role).getD other
  | table, _ => node
  | _, key => if key = Field.reference.name then reference else other

/-- What the items of an array are: the first of them, and the others. -/
def items : Role → List Role × Role
  | node => (Field.all.map Field.role, other)
  | list => ([], node)
  | _ => ([], other)

end Role
end TypedTree.Schema

namespace TypedTree.Json

open Schema (Role)

mutual

/-- A document with a change of every reference. -/
def renamed (change : String → String) (role : Role) : Json → Json
  | .text value => .text (if role = .reference then change value else value)
  | .array items => .array (itemsRenamed change role.items.1 role.items.2 items)
  | .object members => .object (membersRenamed change role members)
  | document => document
termination_by structural document => document

/-- Items with a change of every reference. -/
def itemsRenamed (change : String → String) (first : List Role) (others : Role) :
    List Json → List Json
  | [] => []
  | item :: rest =>
    renamed change (first.headD others) item :: itemsRenamed change first.tail others rest
termination_by structural items => items

/-- Members with a change of every reference. -/
def membersRenamed (change : String → String) (role : Role) :
    List (String × Json) → List (String × Json)
  | [] => []
  | (key, value) :: rest =>
    (key, renamed change (role.member key) value) :: membersRenamed change role rest
termination_by structural members => members

end

namespace Scan

mutual

/-- A scan with a change of every reference. -/
def renamed (change : String → String) (role : Role) : Scan → Scan
  | .text value => .text (if role = .reference then value.map change else value)
  | .array items closed => .array (itemsRenamed change role.items.1 role.items.2 items) closed
  | .object members closed => .object (membersRenamed change role members) closed
  | scan => scan
termination_by structural scan => scan

/-- Items with a change of every reference. -/
def itemsRenamed (change : String → String) (first : List Role) (others : Role) :
    List Scan → List Scan
  | [] => []
  | item :: rest =>
    renamed change (first.headD others) item :: itemsRenamed change first.tail others rest
termination_by structural items => items

/-- Members with a change of every reference; the key of a member may be no text. -/
def membersRenamed (change : String → String) (role : Role) :
    List (Option String × Scan) → List (Option String × Scan)
  | [] => []
  | (key, value) :: rest =>
    (key, renamed change ((key.map role.member).getD .other) value) ::
      membersRenamed change role rest
termination_by structural members => members

end

end Scan

mutual

/-- A change in a document is one in its scan. -/
theorem toScan_renamed (change : String → String) (role : Role) (document : Json) :
    (document.renamed change role).toScan = document.toScan.renamed change role := by
  cases document with
  | null | bool | number => rfl
  | text value =>
    simp only [renamed, toScan, Scan.renamed]
    split <;> rfl
  | array items => simp only [renamed, toScan, Scan.renamed, itemsToScan_renamed]
  | object members => simp only [renamed, toScan, Scan.renamed, membersToScan_renamed]
termination_by structural document

/-- A change in items is one in their scans. -/
theorem itemsToScan_renamed (change : String → String) (first : List Role) (others : Role)
    (items : List Json) :
    itemsToScan (itemsRenamed change first others items) =
      Scan.itemsRenamed change first others (itemsToScan items) := by
  cases items with
  | nil => rfl
  | cons item rest =>
    simp only [itemsRenamed, itemsToScan, Scan.itemsRenamed, toScan_renamed, itemsToScan_renamed]
termination_by structural items

/-- A change in members is one in their scans. -/
theorem membersToScan_renamed (change : String → String) (role : Role)
    (members : List (String × Json)) :
    membersToScan (membersRenamed change role members) =
      Scan.membersRenamed change role (membersToScan members) := by
  cases members with
  | nil => rfl
  | cons member rest =>
    obtain ⟨key, value⟩ := member
    simp only [membersRenamed, membersToScan, Scan.membersRenamed, toScan_renamed,
      membersToScan_renamed]
    rfl
termination_by structural members

end

namespace Scan

/-- A change keeps the number of items. -/
theorem length_itemsRenamed (change : String → String) (first : List Role) (others : Role)
    (items : List Scan) : (itemsRenamed change first others items).length = items.length := by
  induction items generalizing first with
  | nil => rfl
  | cons item rest ih => rw [itemsRenamed, List.length_cons, List.length_cons, ih]

mutual

/-- A change keeps whether a scan follows the grammar to its end. -/
theorem isWhole_renamed (change : String → String) (role : Role) (scan : Scan) :
    (scan.renamed change role).isWhole = scan.isWhole := by
  cases scan with
  | null | bool | number | text | broken => rfl
  | array items closed => simp only [renamed, isWhole, allWhole_renamed]
  | object members closed => simp only [renamed, isWhole, allMembersWhole_renamed]
termination_by structural scan

/-- A change keeps whether items follow the grammar to their end. -/
theorem allWhole_renamed (change : String → String) (first : List Role) (others : Role)
    (items : List Scan) : allWhole (itemsRenamed change first others items) = allWhole items := by
  cases items with
  | nil => rfl
  | cons item rest => simp only [itemsRenamed, allWhole, isWhole_renamed, allWhole_renamed]
termination_by structural items

/-- A change keeps whether members follow the grammar to their end. -/
theorem allMembersWhole_renamed (change : String → String) (role : Role)
    (members : List (Option String × Scan)) :
    allMembersWhole (membersRenamed change role members) = allMembersWhole members := by
  cases members with
  | nil => rfl
  | cons member rest =>
    simp only [membersRenamed, allMembersWhole, isWhole_renamed, allMembersWhole_renamed]
termination_by structural members

end

mutual

/-- A change keeps whether a scan can be held as a value. -/
theorem isSome_toJson?_renamed (change : String → String) (depth : Nat) (role : Role)
    (scan : Scan) : ((scan.renamed change role).toJson? depth).isSome =
      (scan.toJson? depth).isSome := by
  cases scan with
  | null | bool | number | broken => rfl
  | text value =>
    simp only [renamed, toJson?]
    split <;> cases value <;> rfl
  | array items closed =>
    cases depth with
    | zero => rfl
    | succ depth =>
      cases closed with
      | false => rfl
      | true =>
        simp only [renamed, toJson?, ↓reduceIte, Option.isSome_map, isSome_itemsToJson?_renamed]
  | object members closed =>
    cases depth with
    | zero => rfl
    | succ depth =>
      cases closed with
      | false => rfl
      | true =>
        simp only [renamed, toJson?, ↓reduceIte, Option.isSome_map, isSome_membersToJson?_renamed]
termination_by structural scan

/-- A change keeps whether items can be held as values. -/
theorem isSome_itemsToJson?_renamed (change : String → String) (depth : Nat) (first : List Role)
    (others : Role) (items : List Scan) :
    (itemsToJson? depth (itemsRenamed change first others items)).isSome =
      (itemsToJson? depth items).isSome := by
  cases items with
  | nil => rfl
  | cons item rest =>
    have own := isSome_toJson?_renamed change depth (first.headD others) item
    have behind := isSome_itemsToJson?_renamed change depth first.tail others rest
    simp only [itemsRenamed, itemsToJson?]
    generalize (item.renamed change (first.headD others)).toJson? depth = left,
      item.toJson? depth = right at own ⊢
    generalize itemsToJson? depth (itemsRenamed change first.tail others rest) = lefts,
      itemsToJson? depth rest = rights at behind ⊢
    cases left <;> cases right <;> cases lefts <;> cases rights <;> simp_all
termination_by structural items

/-- A change keeps whether members can be held as values. -/
theorem isSome_membersToJson?_renamed (change : String → String) (depth : Nat) (role : Role)
    (members : List (Option String × Scan)) :
    (membersToJson? depth (membersRenamed change role members)).isSome =
      (membersToJson? depth members).isSome := by
  cases members with
  | nil => rfl
  | cons member rest =>
    obtain ⟨key, value⟩ := member
    have own := isSome_toJson?_renamed change depth ((key.map role.member).getD .other) value
    have behind := isSome_membersToJson?_renamed change depth role rest
    simp only [membersRenamed, membersToJson?]
    generalize (value.renamed change ((key.map role.member).getD .other)).toJson? depth = left,
      value.toJson? depth = right at own ⊢
    generalize membersToJson? depth (membersRenamed change role rest) = lefts,
      membersToJson? depth rest = rights at behind ⊢
    cases key <;> cases left <;> cases right <;> cases lefts <;> cases rights <;> simp_all
termination_by structural members

end

mutual

/-- What can be held as a value can be held where more containers may be nested. -/
theorem isSome_toJson?_mono {depth larger : Nat} (more : depth ≤ larger) (scan : Scan)
    (held : (scan.toJson? depth).isSome) : (scan.toJson? larger).isSome := by
  cases scan with
  | null | bool | number | text | broken => exact held
  | array items closed =>
    cases depth with
    | zero => cases held
    | succ depth =>
      obtain ⟨larger, rfl⟩ := Nat.exists_eq_succ_of_ne_zero (Nat.ne_zero_of_lt more)
      cases closed with
      | false => cases held
      | true =>
        simp only [toJson?, ↓reduceIte, Option.isSome_map] at held ⊢
        exact isSome_itemsToJson?_mono (Nat.le_of_succ_le_succ more) items held
  | object members closed =>
    cases depth with
    | zero => cases held
    | succ depth =>
      obtain ⟨larger, rfl⟩ := Nat.exists_eq_succ_of_ne_zero (Nat.ne_zero_of_lt more)
      cases closed with
      | false => cases held
      | true =>
        simp only [toJson?, ↓reduceIte, Option.isSome_map] at held ⊢
        exact isSome_membersToJson?_mono (Nat.le_of_succ_le_succ more) members held
termination_by structural scan

/-- Items that can be held can be held where more containers may be nested. -/
theorem isSome_itemsToJson?_mono {depth larger : Nat} (more : depth ≤ larger) (items : List Scan)
    (held : (itemsToJson? depth items).isSome) : (itemsToJson? larger items).isSome := by
  cases items with
  | nil => rfl
  | cons item rest =>
    have own := isSome_toJson?_mono more item
    have behind := isSome_itemsToJson?_mono more rest
    simp only [itemsToJson?] at held ⊢
    generalize item.toJson? depth = left, item.toJson? larger = right at own held ⊢
    generalize itemsToJson? depth rest = lefts, itemsToJson? larger rest = rights
      at behind held ⊢
    cases left <;> cases right <;> cases lefts <;> cases rights <;> simp_all
termination_by structural items

/-- Members that can be held can be held where more containers may be nested. -/
theorem isSome_membersToJson?_mono {depth larger : Nat} (more : depth ≤ larger)
    (members : List (Option String × Scan)) (held : (membersToJson? depth members).isSome) :
    (membersToJson? larger members).isSome := by
  cases members with
  | nil => rfl
  | cons member rest =>
    obtain ⟨key, value⟩ := member
    have own := isSome_toJson?_mono more value
    have behind := isSome_membersToJson?_mono more rest
    simp only [membersToJson?] at held ⊢
    generalize value.toJson? depth = left, value.toJson? larger = right at own held ⊢
    generalize membersToJson? depth rest = lefts, membersToJson? larger rest = rights
      at behind held ⊢
    cases key <;> cases left <;> cases right <;> cases lefts <;> cases rights <;> simp_all
termination_by structural members

end

end Scan
end TypedTree.Json
