import Mathlib.Data.List.Forall2
import Mathlib.Data.List.Nodup
import Mathlib.Data.List.Perm.Subperm
import TypedTree.Entries
import TypedTree.Proofs.Paired

/-!
# Tables up to the order of their entries

Two tables correspond when they have equally many entries and every entry on the left has a related
one of its name on the right. On tables of distinct keys this comparison from one side is a
comparison from both: it inherits reflexivity, symmetry and transitivity from the values.
-/

namespace TypedTree.Entries

variable {α β γ : Type}

/-- Equally many entries, and for every entry on the left a related one of its name. -/
def Corresponds (related : α → β → Prop) (as : List (String × α)) (bs : List (String × β)) : Prop :=
  as.length = bs.length ∧ ∀ entry ∈ as, ∃ value, get? bs entry.1 = some value ∧
    related entry.2 value

@[simp]
theorem keys_nil : keys ([] : List (String × α)) = [] := rfl

@[simp]
theorem keys_cons (entry : String × α) (rest : List (String × α)) :
    keys (entry :: rest) = entry.1 :: keys rest := rfl

@[simp]
theorem keys_append (as bs : List (String × α)) : keys (as ++ bs) = keys as ++ keys bs :=
  List.map_append

@[simp]
theorem length_keys (entries : List (String × α)) : (keys entries).length = entries.length :=
  List.length_map _

/-- A key is present when some value is entered under it. -/
theorem mem_keys (entries : List (String × α)) (key : String) :
    key ∈ keys entries ↔ ∃ value, (key, value) ∈ entries := by
  simp [keys]

/-- What is found under a key is an entry. -/
theorem mem_of_get? {entries : List (String × α)} {key : String} {value : α}
    (found : get? entries key = some value) : (key, value) ∈ entries := by
  induction entries with
  | nil => simp [get?] at found
  | cons entry rest ih =>
    by_cases here : entry.1 = key
    · simp only [get?, here, ↓reduceIte, Option.some.injEq] at found
      subst here found
      exact List.mem_cons_self
    · simp only [get?, here, ↓reduceIte] at found
      exact List.mem_cons_of_mem _ (ih found)

/-- Nothing is found exactly under the keys that are absent. -/
theorem get?_eq_none (entries : List (String × α)) (key : String) :
    get? entries key = none ↔ key ∉ keys entries := by
  induction entries with
  | nil => simp [get?]
  | cons entry rest ih =>
    by_cases here : entry.1 = key
    · simp [get?, here]
    · have apart : ¬ key = entry.1 := fun same => here same.symm
      simp [get?, here, apart, ih]

/-- Tables that have a key or lack it alike find something under it alike. -/
theorem isNone_get?_eq {as : List (String × α)} {bs : List (String × β)} {key : String}
    (same : key ∈ keys as ↔ key ∈ keys bs) : (get? as key).isNone = (get? bs key).isNone := by
  rw [Bool.eq_iff_iff, Option.isNone_iff_eq_none, Option.isNone_iff_eq_none, get?_eq_none,
    get?_eq_none, same]

/-- Under a present key something is found. -/
theorem exists_get? {entries : List (String × α)} {key : String} (present : key ∈ keys entries) :
    ∃ value, get? entries key = some value := by
  cases found : get? entries key with
  | none => exact absurd present ((get?_eq_none entries key).1 found)
  | some value => exact ⟨value, rfl⟩

@[simp]
theorem distinct_nil : Distinct ([] : List (String × α)) := List.nodup_nil

theorem distinct_cons (entry : String × α) (rest : List (String × α)) :
    Distinct (entry :: rest) ↔ entry.1 ∉ keys rest ∧ Distinct rest := List.nodup_cons

/-- Tables have the same keys in the same order when their entries do, one by one. -/
theorem keys_eq_iff {as : List (String × α)} {bs : List (String × β)} :
    keys as = keys bs ↔ List.Forall₂ (fun a b => a.1 = b.1) as bs := by
  rw [keys, keys, ← List.forall₂_eq_eq_eq, List.forall₂_map_left_iff, List.forall₂_map_right_iff]

/-- Keys that are distinct are so in every order of the entries. -/
theorem distinct_perm {as bs : List (String × α)} (order : as.Perm bs) :
    Distinct as ↔ Distinct bs :=
  (order.map Prod.fst).nodup_iff

/-- In a table of distinct keys every entry is what is found under its key. -/
theorem get?_of_mem {entries : List (String × α)} (distinct : Distinct entries)
    {entry : String × α} (held : entry ∈ entries) : get? entries entry.1 = some entry.2 := by
  induction entries with
  | nil => cases held
  | cons first rest ih =>
    obtain ⟨fresh, distinct⟩ := (distinct_cons first rest).1 distinct
    rcases List.mem_cons.1 held with rfl | held
    · simp [get?]
    · have apart : ¬ first.1 = entry.1 := fun same =>
        fresh (same ▸ List.mem_map_of_mem held)
      simp only [get?, apart, ↓reduceIte]
      exact ih distinct held

/-- What is found under the key of an entry is its value when keys are distinct. -/
theorem eq_of_get? {entries : List (String × α)} (distinct : Distinct entries)
    {entry : String × α} (held : entry ∈ entries) {value : α}
    (found : get? entries entry.1 = some value) : value = entry.2 :=
  Option.some.inj (found.symm.trans (get?_of_mem distinct held))

/-- With the same keys in any order, something is found under the key of every entry. -/
theorem exists_get?_of_perm {as : List (String × α)} {bs : List (String × β)}
    (names : (keys as).Perm (keys bs)) {entry : String × α} (held : entry ∈ as) :
    ∃ value, get? bs entry.1 = some value :=
  exists_get? (names.mem_iff.1 (List.mem_map_of_mem held))

/-- An entry after entering is the entered one or was there before. -/
theorem mem_put {entries : List (String × α)} {key : String} {value : α} {entry : String × α}
    (held : entry ∈ put entries key value) : entry = (key, value) ∨ entry ∈ entries := by
  induction entries with
  | nil => exact .inl (List.mem_singleton.1 held)
  | cons first rest ih =>
    obtain ⟨name, old⟩ := first
    by_cases here : name = key
    · simp only [put, here, ↓reduceIte] at held
      exact (List.mem_cons.1 held).imp_right (List.mem_cons_of_mem _)
    · simp only [put, here, ↓reduceIte] at held
      rcases List.mem_cons.1 held with rfl | held
      · exact .inr List.mem_cons_self
      · exact (ih held).imp_right (List.mem_cons_of_mem _)

/-- A new key is entered at the end. -/
theorem put_of_not_mem {entries : List (String × α)} {key : String} (absent : key ∉ keys entries)
    (value : α) : put entries key value = entries ++ [(key, value)] := by
  induction entries with
  | nil => rfl
  | cons entry rest ih =>
    rw [keys_cons, List.mem_cons, not_or] at absent
    obtain ⟨name, old⟩ := entry
    rw [put, if_neg (Ne.symm absent.1), ih absent.2, List.cons_append]

/-- Entering the entries of a table of distinct keys gives the table. -/
theorem ofList_of_distinct {entries : List (String × α)} (distinct : Distinct entries) :
    ofList entries = entries := by
  have behind (rest : List (String × α)) : ∀ before, Distinct (before ++ rest) →
      rest.foldl (fun entries entry => put entries entry.1 entry.2) before = before ++ rest := by
    induction rest with
    | nil => simp
    | cons entry rest ih =>
      intro before distinct
      have absent : entry.1 ∉ keys before := by
        rw [Distinct, keys_append, keys_cons] at distinct
        exact fun held => List.disjoint_of_nodup_append distinct held List.mem_cons_self
      rw [List.foldl_cons, put_of_not_mem absent, ih] <;> simp [distinct]
  exact behind entries [] distinct

/-- In two tables behind each other the first one answers where it can. -/
theorem get?_append (as bs : List (String × α)) (key : String) :
    get? (as ++ bs) key = (get? as key).or (get? bs key) := by
  induction as with
  | nil => simp [get?]
  | cons entry rest ih =>
    by_cases here : entry.1 = key <;> simp [get?, here, ih]

/-- A change of every value changes what is found. -/
theorem get?_map (change : α → β) (entries : List (String × α)) (key : String) :
    get? (entries.map fun entry => (entry.1, change entry.2)) key =
      (get? entries key).map change := by
  induction entries with
  | nil => rfl
  | cons entry rest ih =>
    by_cases here : entry.1 = key <;> simp [get?, here, ih]

/-- A change of every value changes the one that is entered, too. -/
theorem put_map (change : α → β) (entries : List (String × α)) (key : String) (value : α) :
    (put entries key value).map (fun entry => (entry.1, change entry.2)) =
      put (entries.map fun entry => (entry.1, change entry.2)) key (change value) := by
  induction entries with
  | nil => rfl
  | cons entry rest ih =>
    obtain ⟨name, old⟩ := entry
    by_cases here : name = key <;> simp [put, here, ih]

/-- A change of every value may be made before or after the entries are entered. -/
theorem ofList_map (change : α → β) (pairs : List (String × α)) :
    (ofList pairs).map (fun entry => (entry.1, change entry.2)) =
      ofList (pairs.map fun entry => (entry.1, change entry.2)) := by
  have steps (pairs : List (String × α)) : ∀ entries,
      (pairs.foldl (fun entries pair => put entries pair.1 pair.2) entries).map
          (fun entry => (entry.1, change entry.2)) =
        (pairs.map fun entry => (entry.1, change entry.2)).foldl
          (fun entries pair => put entries pair.1 pair.2)
          (entries.map fun entry => (entry.1, change entry.2)) := by
    induction pairs with
    | nil => exact fun _ => rfl
    | cons pair rest ih =>
      intro entries
      rw [List.foldl_cons, List.map_cons, List.foldl_cons, ih, put_map]
  exact steps pairs []

@[simp]
theorem keys_map (change : String × α → β) (entries : List (String × α)) :
    keys (entries.map fun entry => (entry.1, change entry)) = keys entries := by
  simp [keys, Function.comp_def]

/-- Correspondence asks for the keys first and then for the values under them. -/
theorem corresponds_iff {related : α → β → Prop} {as : List (String × α)}
    {bs : List (String × β)} :
    Corresponds related as bs ↔ as.length = bs.length ∧ (∀ key ∈ keys as, key ∈ keys bs) ∧
      ∀ entry ∈ as, ∀ value, get? bs entry.1 = some value → related entry.2 value := by
  constructor
  · intro ⟨size, matching⟩
    refine ⟨size, fun key present => ?_, fun entry held value found => ?_⟩
    · obtain ⟨value, held⟩ := (mem_keys as key).1 present
      obtain ⟨other, found, _⟩ := matching _ held
      exact List.mem_map_of_mem (mem_of_get? found)
    · obtain ⟨other, foundOther, step⟩ := matching entry held
      rwa [Option.some.inj (found.symm.trans foundOther)]
  · intro ⟨size, present, matching⟩
    refine ⟨size, fun entry held => ?_⟩
    obtain ⟨value, found⟩ := exists_get? (present entry.1 (List.mem_map_of_mem held))
    exact ⟨value, found, matching entry held value found⟩

namespace Corresponds

/-- A table corresponds to itself when its values are related to themselves. -/
theorem refl {related : α → α → Prop} {entries : List (String × α)}
    (distinct : Distinct entries) (same : ∀ entry ∈ entries, related entry.2 entry.2) :
    Corresponds related entries entries :=
  ⟨rfl, fun entry held => ⟨entry.2, get?_of_mem distinct held, same entry held⟩⟩

/-- A key on the left is one on the right. -/
theorem mem_keys {related : α → β → Prop} {as : List (String × α)} {bs : List (String × β)}
    (matching : Corresponds related as bs) {key : String} (present : key ∈ keys as) :
    key ∈ keys bs :=
  (corresponds_iff.1 matching).2.1 key present

/-- Corresponding tables of distinct keys have the same keys. -/
theorem keys_perm {related : α → β → Prop} {as : List (String × α)} {bs : List (String × β)}
    (matching : Corresponds related as bs) (distinct : Distinct as) :
    (keys as).Perm (keys bs) := by
  have inside : (keys as).Subperm (keys bs) :=
    distinct.subperm fun key present => matching.mem_keys present
  exact inside.perm_of_length_le (by simp [matching.1])

/-- What stands under a key on the left is related to what stands under it on the right. -/
theorem get? {related : α → β → Prop} {as : List (String × α)} {bs : List (String × β)}
    (matching : Corresponds related as bs) {key : String} {value : α}
    (found : Entries.get? as key = some value) :
    ∃ other, Entries.get? bs key = some other ∧ related value other :=
  matching.2 (key, value) (mem_of_get? found)

/-- Correspondence of tables of distinct keys can be turned round. -/
theorem symm {related : α → β → Prop} {reversed : β → α → Prop} {as : List (String × α)}
    {bs : List (String × β)} (matching : Corresponds related as bs) (left : Distinct as)
    (right : Distinct bs)
    (turn : ∀ a ∈ as, ∀ b ∈ bs, related a.2 b.2 → reversed b.2 a.2) :
    Corresponds reversed bs as := by
  refine ⟨matching.1.symm, fun b held => ?_⟩
  obtain ⟨value, found⟩ := exists_get?_of_perm (matching.keys_perm left).symm held
  obtain ⟨other, foundRight, step⟩ := matching.get? found
  have same : other = b.2 := eq_of_get? right held foundRight
  subst same
  exact ⟨value, found, turn (b.1, value) (mem_of_get? found) b held step⟩

/-- Correspondences follow each other. -/
theorem trans {first : α → β → Prop} {second : β → γ → Prop} {both : α → γ → Prop}
    {as : List (String × α)} {bs : List (String × β)} {cs : List (String × γ)}
    (matching : Corresponds first as bs) (following : Corresponds second bs cs)
    (join : ∀ a ∈ as, ∀ b ∈ bs, ∀ c ∈ cs, first a.2 b.2 → second b.2 c.2 → both a.2 c.2) :
    Corresponds both as cs := by
  refine ⟨matching.1.trans following.1, fun a held => ?_⟩
  obtain ⟨b, foundB, step⟩ := matching.2 a held
  obtain ⟨c, foundC, next⟩ := following.get? foundB
  exact ⟨c, foundC, join a held (a.1, b) (mem_of_get? foundB) (a.1, c) (mem_of_get? foundC)
    step next⟩

/-- A relation that follows from another one on the entries gives the weaker correspondence. -/
theorem imp {stronger weaker : α → β → Prop} {as : List (String × α)} {bs : List (String × β)}
    (matching : Corresponds stronger as bs)
    (follows : ∀ a ∈ as, ∀ b ∈ bs, stronger a.2 b.2 → weaker a.2 b.2) :
    Corresponds weaker as bs := by
  refine ⟨matching.1, fun a held => ?_⟩
  obtain ⟨b, found, step⟩ := matching.2 a held
  exact ⟨b, found, follows a held (a.1, b) (mem_of_get? found) step⟩

/-- Changes of the values that keep them related keep the correspondence. -/
theorem map {δ : Type} {related : α → β → Prop} {after : γ → δ → Prop}
    {as : List (String × α)} {bs : List (String × β)} (matching : Corresponds related as bs)
    (left : α → γ) (right : β → δ)
    (step : ∀ a ∈ as, ∀ b ∈ bs, related a.2 b.2 → after (left a.2) (right b.2)) :
    Corresponds after (as.map fun a => (a.1, left a.2)) (bs.map fun b => (b.1, right b.2)) := by
  refine ⟨by simpa using matching.1, fun entry held => ?_⟩
  obtain ⟨a, heldLeft, rfl⟩ := List.mem_map.1 held
  obtain ⟨b, found, related⟩ := matching.2 a heldLeft
  exact ⟨right b, by simp [get?_map, found],
    step a heldLeft (a.1, b) (mem_of_get? found) related⟩

/-- Under every key, corresponding tables of distinct keys hold related values or nothing. -/
theorem rel_get? {related : α → β → Prop} {as : List (String × α)} {bs : List (String × β)}
    (matching : Corresponds related as bs) (distinct : Distinct as) (key : String) :
    Option.Rel related (Entries.get? as key) (Entries.get? bs key) := by
  cases found : Entries.get? as key with
  | some value =>
    obtain ⟨other, there, step⟩ := matching.get? found
    rw [there]
    exact .some step
  | none =>
    have absent : key ∉ keys bs := by
      rw [← (matching.keys_perm distinct).mem_iff]
      exact (get?_eq_none as key).1 found
    rw [(get?_eq_none bs key).2 absent]
    exact .none

/-- Entering related values under one key keeps a correspondence. -/
theorem put {related : α → β → Prop} {as : List (String × α)} {bs : List (String × β)}
    (matching : Corresponds related as bs) (distinct : Distinct as) (key : String) {value : α}
    {other : β} (step : related value other) :
    Corresponds related (Entries.put as key value) (Entries.put bs key other) := by
  have names : key ∈ keys as ↔ key ∈ keys bs := (matching.keys_perm distinct).mem_iff
  refine ⟨?_, fun entry held => ?_⟩
  · rw [← length_keys, ← length_keys, keys_put, keys_put]
    by_cases present : key ∈ keys as
    · rw [if_pos present, if_pos (names.1 present), length_keys, length_keys]
      exact matching.1
    · rw [if_neg present, if_neg (mt names.2 present)]
      simp [matching.1]
  · have found := get?_of_mem (distinct_put as key value distinct) held
    rw [get?_put] at found ⊢
    by_cases here : key = entry.1
    · rw [if_pos here] at found ⊢
      exact ⟨other, rfl, Option.some.inj found ▸ step⟩
    · rw [if_neg here] at found ⊢
      exact matching.get? found

end Corresponds

/-- Entries that stand under the same keys one by one, with related values. -/
abbrev Aligned (related : α → β → Prop) : List (String × α) → List (String × β) → Prop :=
  List.Forall₂ fun a b => a.1 = b.1 ∧ related a.2 b.2

namespace Aligned

variable {related : α → β → Prop} {as : List (String × α)} {bs : List (String × β)}

/-- Aligned tables have their keys in the same order. -/
theorem keys_eq (aligned : Aligned related as bs) : keys as = keys bs := by
  induction aligned with
  | nil => rfl
  | cons same _ ih => simp [same.1, ih]

/-- What stands under a key on the left is related to what stands under it on the right. -/
theorem get? (aligned : Aligned related as bs) {key : String} {value : α}
    (found : Entries.get? as key = some value) :
    ∃ other, Entries.get? bs key = some other ∧ related value other := by
  induction aligned with
  | nil => simp [Entries.get?] at found
  | @cons a b _ _ same _ ih =>
    by_cases here : a.1 = key
    · simp only [Entries.get?, here, ↓reduceIte, Option.some.injEq] at found
      subst found
      exact ⟨b.2, by simp [Entries.get?, ← same.1, here], same.2⟩
    · simp only [Entries.get?, here, ↓reduceIte] at found
      obtain ⟨other, foundRight, step⟩ := ih found
      exact ⟨other, by simp [Entries.get?, ← same.1, here, foundRight], step⟩

/-- Aligned tables of distinct keys correspond. -/
theorem corresponds (aligned : Aligned related as bs) (distinct : Distinct as) :
    Corresponds related as bs :=
  ⟨aligned.length_eq, fun _ held => aligned.get? (get?_of_mem distinct held)⟩

/-- Tables that are aligned in some order of their entries correspond. -/
theorem corresponds_of_perm {left : List (String × α)} {right : List (String × β)}
    (aligned : Aligned related left right) (arranged : left.Perm as) (arrangedRight : right.Perm bs)
    (distinct : Distinct left) (distinctRight : Distinct bs) : Corresponds related as bs := by
  obtain ⟨size, matching⟩ := aligned.corresponds distinct
  refine ⟨arranged.length_eq.symm.trans (size.trans arrangedRight.length_eq), fun entry held => ?_⟩
  obtain ⟨value, found, step⟩ := matching entry (arranged.mem_iff.2 held)
  have there : (entry.1, value) ∈ bs := arrangedRight.mem_iff.1 (mem_of_get? found)
  exact ⟨value, get?_of_mem distinctRight there, step⟩

/-- Aligned tables have related values in the same order. -/
theorem values (aligned : Aligned related as bs) :
    List.Forall₂ related (as.map Prod.snd) (bs.map Prod.snd) := by
  rw [List.forall₂_map_left_iff, List.forall₂_map_right_iff]
  exact aligned.imp fun _ _ same => same.2

/-- Related values under the keys of a table are aligned with it. -/
theorem zip {values : List β} (paired : List.Forall₂ related (as.map Prod.snd) values) :
    Aligned related as ((keys as).zip values) := by
  induction as generalizing values with
  | nil => cases paired; exact .nil
  | cons a as ih =>
    obtain _ | ⟨first, paired⟩ := paired
    exact .cons ⟨rfl, first⟩ (ih paired)

end Aligned

/-- Corresponding tables of distinct keys can be aligned by arranging the one on the right. -/
theorem Corresponds.exists_aligned {related : α → β → Prop} {as : List (String × α)}
    {bs : List (String × β)} (matching : Corresponds related as bs) (left : Distinct as) :
    ∃ arranged, Aligned related as arranged ∧ arranged.Perm bs := by
  obtain ⟨arranged, found⟩ := Paired.exists_of_forall
    (R := fun (a : String × α) b => b ∈ bs ∧ a.1 = b.1 ∧ related a.2 b.2) fun a held => by
      obtain ⟨value, there, step⟩ := matching.2 a held
      exact ⟨(a.1, value), mem_of_get? there, rfl, step⟩
  have aligned : Aligned related as arranged := Paired.imp found fun _ _ _ _ all => all.2
  have distinct : arranged.Nodup := by
    refine List.Nodup.of_map Prod.fst ?_
    rw [← keys, ← aligned.keys_eq]
    exact left
  have inside : arranged.Subperm bs := distinct.subperm fun b held => by
    obtain ⟨_, _, there, _⟩ := Paired.exists_left found held
    exact there
  have size : bs.length ≤ arranged.length :=
    Nat.le_of_eq (matching.1.symm.trans aligned.length_eq)
  exact ⟨arranged, aligned, inside.perm_of_length_le size⟩

/--
Where corresponding values have related results, results of the one table have corresponding results
of the other, each table with its results in its own order.
-/
theorem Corresponds.exists_results {δ : Type} {related : α → β → Prop} {first : α → γ → Prop}
    {second : β → δ → Prop} {equal : γ → δ → Prop} {as : List (String × α)}
    {bs : List (String × β)} {results : List (String × γ)} (matching : Corresponds related as bs)
    (distinct : Distinct as) (aligned : Aligned first as results)
    (step : ∀ a ∈ as, ∀ b ∈ bs, ∀ result, related a.2 b.2 → first a.2 result →
      ∃ other, second b.2 other ∧ equal result other) :
    ∃ others, Aligned second bs others ∧ Corresponds equal results others := by
  have right : Distinct bs := (matching.keys_perm distinct).nodup_iff.1 distinct
  have turned : Corresponds (fun b a => related a b) bs as :=
    matching.symm distinct right fun _ _ _ _ step => step
  obtain ⟨others, found⟩ := Paired.exists_of_forall
    (R := fun (b : String × β) (other : String × δ) => b.1 = other.1 ∧ second b.2 other.2 ∧
      ∃ result, Entries.get? results b.1 = some result ∧ equal result other.2) fun b held => by
      obtain ⟨a, there, related⟩ := turned.2 b held
      obtain ⟨result, foundResult, first⟩ := aligned.get? there
      obtain ⟨other, second, equal⟩ := step _ (mem_of_get? there) b held result related first
      exact ⟨(b.1, other), rfl, second, result, foundResult, equal⟩
  have own : Aligned second bs others := Paired.imp found fun _ _ _ _ all => ⟨all.1, all.2.1⟩
  have backwards : Corresponds (fun other result => equal result other) others results := by
    refine ⟨?_, fun other held => ?_⟩
    · rw [← own.length_eq, ← matching.1, aligned.length_eq]
    · obtain ⟨b, _, same, _, matched⟩ := Paired.exists_left found held
      rwa [← same]
  refine ⟨others, own, backwards.symm ?_ ?_ fun _ _ _ _ step => step⟩
  · rw [Distinct, ← own.keys_eq]
    exact right
  · rw [Distinct, ← aligned.keys_eq]
    exact distinct

end TypedTree.Entries
