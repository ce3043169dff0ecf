import TypedTree.Proofs.Convert.Reading

/-!
# The inferred element shape

Where plain `dynamic` is declared, a collection takes the shape that its members share. Nulls say
nothing about it: it is the shape of a member that is not null and equals that of every other one,
or `dynamic` where all members are null. Every shape that the members share is equal to it.
-/

namespace TypedTree.Value

/-- A shape that equals the shape of every item that is not null. -/
def Shares (element : Shape) (items : List Value) : Prop :=
  ∀ item ∈ items, item.isNull = true ∨ element == item.shape

/-- A shared shape that is that of an item, or `dynamic` where no item has one to share. -/
def Infers (items : List Value) (element : Shape) : Prop :=
  Shares element items ∧
    ((∃ item ∈ items, item.isNull = false ∧ element = item.shape) ∨
      (∀ item ∈ items, item.isNull = true) ∧ element = .dynamic)

theorem shares_cons (element : Shape) (item : Value) (rest : List Value) :
    Shares element (item :: rest) ↔
      (item.isNull = true ∨ element == item.shape) ∧ Shares element rest :=
  List.forall_mem_cons

/-- What is inferred lets every other shape that the items share be equal to it. -/
theorem Infers.beq {items : List Value} {element shape : Shape} (inferred : Infers items element)
    (shared : Shares shape items) {item : Value} (held : item ∈ items)
    (present : item.isNull = false) : shape == element := by
  rcases inferred.2 with ⟨other, there, known, rfl⟩ | ⟨null, _⟩
  · exact (shared other there).resolve_left (by simp [known])
  · exact absurd (null item held) (by simp [present])

/-- The inferred shape of well-formed items is well-formed. -/
theorem Infers.wellFormed {items : List Value} {element : Shape} (inferred : Infers items element)
    (formed : ∀ item ∈ items, item.WellFormed) : element.WellFormed := by
  rcases inferred.2 with ⟨item, held, _, rfl⟩ | ⟨_, rfl⟩
  · exact (formed item held).shape
  · exact .dynamic

/-- Once a shape is found, the members that are not null have to have it. -/
theorem inferElement_some (found element : Shape) (members : List (Step × Value)) :
    inferElement (some found) members = .ok element ↔
      element = found ∧ Shares found (members.map Prod.snd) := by
  induction members with
  | nil => simp [inferElement, Shares, @eq_comm _ element]
  | cons member rest ih =>
    obtain ⟨step, value⟩ := member
    rw [List.map_cons, shares_cons]
    by_cases null : value.isNull = true
    · simp [inferElement, null, ih]
    · by_cases same : found == value.shape <;> simp [inferElement, null, same, ih]

/-- Inference that succeeds gives a shape that the members share. -/
theorem infers_of_inferElement {element : Shape} {members : List (Step × Value)}
    (formed : ∀ item ∈ members.map Prod.snd, item.WellFormed)
    (inferred : inferElement none members = .ok element) :
    Infers (members.map Prod.snd) element := by
  induction members with
  | nil => simp_all [inferElement, Infers, Shares]
  | cons member rest ih =>
    obtain ⟨step, value⟩ := member
    simp only [List.map_cons, List.forall_mem_cons] at formed
    by_cases null : value.isNull = true
    · simp only [inferElement, null, ↓reduceIte] at inferred
      obtain ⟨shared, source⟩ := ih formed.2 inferred
      refine ⟨(shares_cons _ _ _).2 ⟨.inl null, shared⟩, ?_⟩
      simpa [null] using source
    · simp only [inferElement, null, Bool.false_eq_true, ↓reduceIte, inferElement_some] at inferred
      obtain ⟨rfl, shared⟩ := inferred
      refine ⟨(shares_cons _ _ _).2 ⟨.inr (Shape.beq_refl formed.1.shape), shared⟩, .inl ?_⟩
      exact ⟨value, List.mem_cons_self, by simpa using null, rfl⟩

/-- Inference succeeds on members that share some shape. -/
theorem exists_inferElement {shape : Shape} {members : List (Step × Value)} {found : Option Shape}
    (declared : shape.WellFormed) (shared : Shares shape (members.map Prod.snd))
    (before : ∀ first, found = some first → shape == first) :
    ∃ element, inferElement found members = .ok element := by
  induction members generalizing found with
  | nil => exact ⟨_, rfl⟩
  | cons member rest ih =>
    obtain ⟨step, value⟩ := member
    obtain ⟨here, others⟩ := (shares_cons _ _ _).1 shared
    by_cases null : value.isNull = true
    · simpa only [inferElement, null, ↓reduceIte] using ih others before
    · have same := here.resolve_left null
      cases found with
      | none =>
        simp only [inferElement, null, Bool.false_eq_true, ↓reduceIte]
        exact ih others (by rintro _ ⟨⟩; exact same)
      | some first =>
        have repeated : first == value.shape :=
          Shape.beq_trans (Shape.beq_symm declared (before first rfl)) same
        simp only [inferElement, null, Bool.false_eq_true, repeated, ↓reduceIte]
        exact ih others before

@[simp]
theorem map_snd_indexed (items : List Value) : (indexed items).map Prod.snd = items := by
  simp [indexed, List.mapIdx_eq_zipIdx_map, Function.comp_def, List.zipIdx_map_fst]

@[simp]
theorem map_snd_keyed (entries : List (String × Value)) :
    (keyed entries).map Prod.snd = entries.map Prod.snd := by
  simp [keyed]

/-- The element shape of a collection is the declared one, or inferred for plain `dynamic`. -/
def Unified (declared : Shape) (items : List Value) (element : Shape) : Prop :=
  declared ≠ .dynamic ∧ element = declared ∨ declared = .dynamic ∧ Infers items element

/-- The unified shape of well-formed items under a well-formed shape is well-formed. -/
theorem Unified.wellFormed {declared element : Shape} {items : List Value}
    (unified : Unified declared items element) (shape : declared.WellFormed)
    (formed : ∀ item ∈ items, item.WellFormed) : element.WellFormed := by
  rcases unified with ⟨_, rfl⟩ | ⟨_, inferred⟩
  · exact shape
  · exact inferred.wellFormed formed

/-- Unification that succeeds gives the unified shape of the members. -/
theorem unify_ok {declared element : Shape} {members : List (Step × Value)}
    (formed : ∀ item ∈ members.map Prod.snd, item.WellFormed)
    (unified : unify declared members = .ok element) :
    Unified declared (members.map Prod.snd) element := by
  cases declared with
  | dynamic => exact .inr ⟨rfl, infers_of_inferElement formed unified⟩
  | _ => exact .inl ⟨by simp, (Except.ok.inj unified).symm⟩

/-- A collection keeps a declared element shape that is not plain `dynamic`. -/
theorem unify_declared {declared : Shape} (known : declared ≠ .dynamic)
    (members : List (Step × Value)) : unify declared members = .ok declared := by
  cases declared <;> first | rfl | exact absurd rfl known

/-- Members that share a shape have an element shape where plain `dynamic` is declared. -/
theorem exists_unify {shape : Shape} {members : List (Step × Value)}
    (declared : shape.WellFormed) (formed : ∀ item ∈ members.map Prod.snd, item.WellFormed)
    (shared : Shares shape (members.map Prod.snd)) :
    ∃ element, unify .dynamic members = .ok element ∧ Infers (members.map Prod.snd) element := by
  have start (first : Shape) (found : none = some first) : shape == first := nomatch found
  obtain ⟨element, inferred⟩ := exists_inferElement declared shared start
  exact ⟨element, inferred, infers_of_inferElement formed inferred⟩

/-- The shared shape of items is inferred from them. -/
theorem infers_of_sharedShape? {items : List Value} {element : Shape}
    (formed : ∀ item ∈ items, item.WellFormed) (shared : sharedShape? items = some element) :
    Infers items element ∧ ∃ item ∈ items, item.isNull = false := by
  unfold sharedShape? at shared
  split at shared
  · contradiction
  · rename_i first rest known
    have among (item : Value) : item ∈ first :: rest ↔ item ∈ items ∧ item.isNull = false := by
      simp [← known]
    obtain ⟨held, present⟩ := (among first).1 List.mem_cons_self
    simp only [List.all_eq_true, Option.ite_none_right_eq_some, Option.some.injEq] at shared
    obtain ⟨alike, rfl⟩ := shared
    refine ⟨⟨fun item there => ?_, .inl ⟨first, held, present, rfl⟩⟩, first, held, present⟩
    cases null : item.isNull with
    | true => exact .inl rfl
    | false =>
      refine .inr ?_
      rcases List.mem_cons.1 ((among item).2 ⟨there, null⟩) with rfl | later
      · exact Shape.beq_refl (formed item there).shape
      · exact Shape.beq_symm (formed item there).shape (alike item later)

/-- Items that share a shape without being all null have a shared shape. -/
theorem exists_sharedShape? {items : List Value} {shape : Shape} (declared : shape.WellFormed)
    (shared : Shares shape items) {item : Value} (held : item ∈ items)
    (present : item.isNull = false) :
    ∃ element, sharedShape? items = some element := by
  unfold sharedShape?
  split
  · rename_i none
    have absent : item ∈ items.filter (!·.isNull) := by simp [held, present]
    simp [none] at absent
  · rename_i first rest known
    have among (item : Value) : item ∈ first :: rest ↔ item ∈ items ∧ item.isNull = false := by
      simp [← known]
    have equal {item : Value} (there : item ∈ first :: rest) : shape == item.shape :=
      (shared item ((among item).1 there).1).resolve_left (by simp [((among item).1 there).2])
    have alike : rest.all (·.shape == first.shape) = true := by
      refine List.all_eq_true.2 fun item later => ?_
      have member := List.mem_cons_of_mem first later
      exact Shape.beq_trans (Shape.beq_symm declared (equal member)) (equal List.mem_cons_self)
    exact ⟨first.shape, by simp [alike]⟩

end TypedTree.Value
