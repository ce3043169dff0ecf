import TypedTree.Proofs.Schema.Outcomes

/-!
# Resolution without a memo table

The recursion of resolution, in which no shape is kept and none is found. What it gives for a budget
it gives for every larger one, unless the budget ran out; a shape that it finds does not depend on
the path; and nodes that agree have equal shapes, whatever the order of their properties.
-/

namespace TypedTree.Schema

namespace Form

/-- The shapes of properties in order, where parts are resolved without a state. -/
def attributesFreely (next : Node → Path → Except SchemaError Shape) (path : Path)
    (properties : List (String × Node)) : Except SchemaError (List (String × Shape)) :=
  (attributes (fun node path state => (next node path, state)) path () properties).1

/-- The shape of a form, where parts are resolved without a state. -/
def freely (next : Node → Path → Except SchemaError Shape) (form : Form) (path : Path) :
    Except SchemaError Shape :=
  (form.shape (fun node path state => (next node path, state)) path ()).1

variable {next larger : Node → Path → Except SchemaError Shape} {path : Path}

@[simp]
theorem attributesFreely_nil : attributesFreely next path [] = .ok [] := rfl

@[simp]
theorem attributesFreely_cons (name : String) (node : Node) (rest : List (String × Node)) :
    attributesFreely next path ((name, node) :: rest) =
      (next node (path.push (.attr name))).bind fun shape =>
        (attributesFreely next path rest).map fun shapes => (name, shape) :: shapes := by
  simp only [attributesFreely, attributes]
  cases next node (path.push (.attr name)) with
  | error cause => rfl
  | ok shape =>
    simp only [Except.bind]
    generalize attributes _ path () rest = outcome
    obtain ⟨outcome, state⟩ := outcome
    cases outcome <;> rfl

@[simp]
theorem freely_settled (shape : Shape) : (settled shape).freely next path = .ok shape := rfl

@[simp]
theorem freely_same (node : Node) : (same node).freely next path = next node path := rfl

@[simp]
theorem freely_list (items : Node) :
    (list items).freely next path = (next items (path.push (.attr "items"))).map .list := rfl

@[simp]
theorem freely_sequence (items : Node) :
    (sequence items).freely next path =
      (next items (path.push (.attr "additionalItems"))).map fun item => .tuple [item] := rfl

@[simp]
theorem freely_map (values : Node) :
    (map values).freely next path =
      (next values (path.push (.attr "additionalProperties"))).map .map := rfl

@[simp]
theorem freely_object (properties : List (String × Node)) :
    (object properties).freely next path = (attributesFreely next path properties).map .object := by
  simp only [freely, shape, attributesFreely]
  generalize attributes _ path () properties = outcome
  obtain ⟨outcome, state⟩ := outcome
  cases outcome <;> rfl

@[simp]
theorem freely_fault (cause : SchemaError.Cause) :
    (fault cause).freely next path = .error ⟨path, cause⟩ := rfl

/-- One way to resolve parts gives what another one gives wherever that is definite. -/
def Extends (larger next : Node → Path → Except SchemaError Shape) : Prop :=
  ∀ node path, Definite (next node path) → larger node path = next node path

namespace Extends

/-- Extending parts without a state prolongs them. -/
theorem prolongs (extension : Extends larger next) :
    Prolongs (fun node path (state : Unit) => (larger node path, state))
      fun node path state => (next node path, state) :=
  fun node path _ definite => Prod.ext (extension node path definite) rfl

/-- The shapes of properties stay what they are when the parts are extended. -/
theorem attributesFreely (extension : Extends larger next) (properties : List (String × Node))
    (definite : Definite (attributesFreely next path properties)) :
    Form.attributesFreely larger path properties = Form.attributesFreely next path properties :=
  congrArg Prod.fst (extension.prolongs.attributes path properties () definite)

/-- The shape of a form stays what it is when the parts are extended. -/
theorem freely (extension : Extends larger next) (form : Form)
    (definite : Definite (form.freely next path)) :
    form.freely larger path = form.freely next path :=
  congrArg Prod.fst (extension.prolongs.shape form path () definite)

end Extends
end Form

/-- The shape of a node at a path, within a budget of steps, where no shape is kept. -/
def resolveFreely (definitions : List (String × Node)) :
    Nat → Node → Path → Except SchemaError Shape
  | 0, _, path => .error ⟨path, .recursionOverrun⟩
  | budget + 1, node, path => (node.form definitions).freely (resolveFreely definitions budget) path

variable {definitions : List (String × Node)}

/-- A larger budget changes nothing but that it is less often insufficient. -/
theorem resolveFreely_extends {budget larger : Nat} (more : budget ≤ larger) :
    Form.Extends (resolveFreely definitions larger) (resolveFreely definitions budget) := by
  induction budget generalizing larger with
  | zero => exact fun _ _ definite => absurd definite (Definite.not_overrun _)
  | succ budget ih =>
    cases larger with
    | zero => omega
    | succ larger =>
      have extension := ih (Nat.le_of_succ_le_succ more)
      exact fun node _ definite => extension.freely (node.form definitions) definite

/-! ## Shapes that are found -/

/-- The shape that a node has within a budget of steps, at whatever path. -/
def Node.Gives (definitions : List (String × Node)) : Nat → Node → Shape → Prop
  | 0, _, _ => False
  | budget + 1, node, shape => (node.form definitions).Gives (Node.Gives definitions budget) shape

namespace Form

variable {next : Node → Path → Except SchemaError Shape} {gives : Node → Shape → Prop}

/-- The shapes of properties are those of the parts, one by one. -/
theorem attributesFreely_eq_ok
    (parts : ∀ node path shape, next node path = .ok shape ↔ gives node shape) (path : Path)
    (properties : List (String × Node)) (attributes : List (String × Shape)) :
    attributesFreely next path properties = .ok attributes ↔
      Entries.Aligned gives properties attributes := by
  induction properties generalizing attributes with
  | nil => simp [eq_comm]
  | cons property rest ih =>
    obtain ⟨name, node⟩ := property
    simp only [attributesFreely_cons, bind_eq_ok, map_eq_ok, parts, ih]
    constructor
    · rintro ⟨shape, first, shapes, others, rfl⟩
      exact .cons ⟨rfl, first⟩ others
    · intro aligned
      cases aligned with
      | @cons _ entry _ shapes first others =>
        obtain ⟨own, shape⟩ := entry
        obtain rfl : name = own := first.1
        exact ⟨shape, first.2, shapes, others, rfl⟩

/-- The shapes that a form is found to have are those that its parts give it. -/
theorem freely_eq_ok
    (parts : ∀ node path shape, next node path = .ok shape ↔ gives node shape) (form : Form)
    (path : Path) (shape : Shape) :
    form.freely next path = .ok shape ↔ form.Gives gives shape := by
  constructor
  · intro found
    cases form with
    | settled own =>
      obtain rfl := Except.ok.inj found
      exact .settled own
    | same node => exact .same ((parts _ _ _).1 found)
    | list items =>
      obtain ⟨element, part, rfl⟩ := map_eq_ok.1 found
      exact .list ((parts _ _ _).1 part)
    | sequence items =>
      obtain ⟨element, part, rfl⟩ := map_eq_ok.1 found
      exact .sequence ((parts _ _ _).1 part)
    | map values =>
      obtain ⟨element, part, rfl⟩ := map_eq_ok.1 found
      exact .map ((parts _ _ _).1 part)
    | object properties =>
      rw [freely_object, map_eq_ok] at found
      obtain ⟨attributes, aligned, rfl⟩ := found
      exact .object ((attributesFreely_eq_ok parts _ _ _).1 aligned)
    | fault cause => cases found
  · intro given
    cases given with
    | settled shape => rfl
    | same part => exact (parts _ _ _).2 part
    | list part => exact map_eq_ok.2 ⟨_, (parts _ _ _).2 part, rfl⟩
    | sequence part => exact map_eq_ok.2 ⟨_, (parts _ _ _).2 part, rfl⟩
    | map part => exact map_eq_ok.2 ⟨_, (parts _ _ _).2 part, rfl⟩
    | object aligned =>
      rw [freely_object, map_eq_ok]
      exact ⟨_, (attributesFreely_eq_ok parts _ _ _).2 aligned, rfl⟩

end Form

/-- What is found for a node does not depend on the path. -/
theorem resolveFreely_eq_ok (budget : Nat) (node : Node) (path : Path) (shape : Shape) :
    resolveFreely definitions budget node path = .ok shape ↔
      node.Gives definitions budget shape := by
  induction budget generalizing node path shape with
  | zero => simp [resolveFreely, Node.Gives]
  | succ budget ih => exact Form.freely_eq_ok ih (node.form definitions) path shape

namespace Form

variable {gives givesOther : Node → Shape → Prop} {form other : Form} {shape : Shape}

/-- A form has a well-formed shape when its parts have. -/
theorem Gives.wellFormed (given : form.Gives gives shape) (formed : form.WellFormed)
    (parts : ∀ node shape, node.WellFormed → gives node shape → shape.WellFormed) :
    shape.WellFormed := by
  cases given with
  | settled shape => cases formed; assumption
  | same part => cases formed with | same formed => exact parts _ _ formed part
  | list part => cases formed with | list formed => simpa using parts _ _ formed part
  | sequence part => cases formed with | sequence formed => simpa using parts _ _ formed part
  | map part => cases formed with | map formed => simpa using parts _ _ formed part
  | object aligned =>
    cases formed with
    | object distinct formed =>
      refine .object ?_ fun entry held => ?_
      · rw [Entries.Distinct, ← aligned.keys_eq]
        exact distinct
      · obtain ⟨property, entered, _, part⟩ := Paired.exists_left aligned held
        exact parts _ _ (formed property entered) part

/-- Forms that match have equal shapes when agreeing parts have. -/
theorem Gives.of_matches (given : form.Gives gives shape) (formed : form.WellFormed)
    (matching : form.Matches other)
    (parts : ∀ a b shape, a.WellFormed → a.Agrees b → gives a shape →
      ∃ again, givesOther b again ∧ shape == again) :
    ∃ again, other.Gives givesOther again ∧ shape == again := by
  cases matching with
  | settled shape =>
    cases given
    cases formed with
    | settled formed => exact ⟨shape, .settled shape, Shape.beq_refl formed⟩
  | fault cause => cases given
  | same agree =>
    cases given with
    | same part =>
      cases formed with
      | same formed =>
        obtain ⟨again, own, equal⟩ := parts _ _ _ formed agree part
        exact ⟨again, .same own, equal⟩
  | list agree =>
    cases given with
    | list part =>
      cases formed with
      | list formed =>
        obtain ⟨again, own, equal⟩ := parts _ _ _ formed agree part
        exact ⟨_, .list own, (Shape.list_beq _ _).2 ⟨again, rfl, equal⟩⟩
  | sequence agree =>
    cases given with
    | sequence part =>
      cases formed with
      | sequence formed =>
        obtain ⟨again, own, equal⟩ := parts _ _ _ formed agree part
        exact ⟨_, .sequence own, (Shape.tuple_beq _ _).2 ⟨[again], rfl, .cons equal .nil⟩⟩
  | map agree =>
    cases given with
    | map part =>
      cases formed with
      | map formed =>
        obtain ⟨again, own, equal⟩ := parts _ _ _ formed agree part
        exact ⟨_, .map own, (Shape.map_beq _ _).2 ⟨again, rfl, equal⟩⟩
  | object matching =>
    cases given with
    | object aligned =>
      cases formed with
      | object distinct formed =>
        obtain ⟨others, own, equal⟩ := matching.exists_results distinct aligned
          fun a held _ _ shape agree given => parts _ _ shape (formed a held) agree given
        exact ⟨_, .object own, (Shape.object_beq _ _).2 ⟨others, rfl, equal⟩⟩

end Form

/-- Nodes of distinct names have shapes of distinct names. -/
theorem Node.Gives.wellFormed {budget : Nat} {node : Node} {shape : Shape}
    (given : node.Gives definitions budget shape)
    (table : ∀ entry ∈ definitions, entry.2.WellFormed) (formed : node.WellFormed) :
    shape.WellFormed := by
  induction budget generalizing node shape with
  | zero => cases given
  | succ budget ih =>
    exact Form.Gives.wellFormed given (formed.form table) fun _ _ formed given => ih given formed

/-- Nodes of two documents that agree have equal shapes if equal references have matching forms. -/
theorem Node.Gives.of_references {others : List (String × Node)} {budget : Nat} {a b : Node}
    {shape : Shape} (given : a.Gives definitions budget shape)
    (table : ∀ entry ∈ definitions, entry.2.WellFormed)
    (references : ∀ reference,
      (Form.ofReference definitions reference).Matches (.ofReference others reference))
    (formed : a.WellFormed) (agree : a.Agrees b) :
    ∃ again, b.Gives others budget again ∧ shape == again := by
  induction budget generalizing a b shape with
  | zero => cases given
  | succ budget ih =>
    exact Form.Gives.of_matches given (formed.form table) (agree.form references)
      fun _ _ _ formed agree given => ih given formed agree

/-- Nodes that agree have equal shapes, within the same budget. -/
theorem Node.Gives.of_agrees {budget : Nat} {a b : Node} {shape : Shape}
    (given : a.Gives definitions budget shape)
    (table : ∀ entry ∈ definitions, entry.2.WellFormed) (formed : a.WellFormed)
    (agree : a.Agrees b) : ∃ again, b.Gives definitions budget again ∧ shape == again :=
  given.of_references table
    (fun reference => (Form.wellFormed_ofReference table reference).matches_self) formed agree

end TypedTree.Schema
