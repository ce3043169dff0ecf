/-!
# Ordered entries

Objects, maps and tables are lists of keyed entries in the order in which their keys first came.
Entering a key again changes its value and keeps its place.
-/

namespace TypedTree.Entries

variable {α : Type}

/-- The keys in order. -/
def keys (entries : List (String × α)) : List String := entries.map Prod.fst

/-- The value under a key, which is that of its first entry. -/
def get? (entries : List (String × α)) (key : String) : Option α :=
  match entries with
  | [] => none
  | (name, value) :: rest => if name = key then some value else get? rest key

/-- Enters a value under a key: in place if the key is present, at the end if it is not. -/
def put (entries : List (String × α)) (key : String) (value : α) : List (String × α) :=
  match entries with
  | [] => [(key, value)]
  | (name, old) :: rest =>
    if name = key then (key, value) :: rest else (name, old) :: put rest key value

/-- Enters a list of keyed values from left to right. -/
def ofList (pairs : List (String × α)) : List (String × α) :=
  pairs.foldl (fun entries pair => put entries pair.1 pair.2) []

/-- Every key stands once. -/
def Distinct (entries : List (String × α)) : Prop := (keys entries).Nodup

/-- After a key is entered, it holds the entered value and every other key what it held before. -/
theorem get?_put (entries : List (String × α)) (key other : String) (value : α) :
    get? (put entries key value) other =
      if key = other then some value else get? entries other := by
  induction entries with
  | nil => simp [put, get?]
  | cons entry rest ih =>
    obtain ⟨name, old⟩ := entry
    by_cases same : name = key
    · subst same
      by_cases hit : name = other <;> simp [put, get?, hit]
    · by_cases hit : name = other
      · subst hit
        have apart : ¬ key = name := fun h => same h.symm
        simp [put, get?, same, apart]
      · simp [put, get?, same, hit, ih]

/-- Entering a key adds it at the end of the keys unless it is there already. -/
theorem keys_put (entries : List (String × α)) (key : String) (value : α) :
    keys (put entries key value) =
      if key ∈ keys entries then keys entries else keys entries ++ [key] := by
  induction entries with
  | nil => simp [put, keys]
  | cons entry rest ih =>
    obtain ⟨name, old⟩ := entry
    by_cases same : name = key
    · simp [put, keys, same]
    · have apart : ¬ key = name := fun h => same h.symm
      simp only [put, same, ↓reduceIte]
      simp only [keys, List.map_cons, List.mem_cons, apart, false_or] at ih ⊢
      rw [ih]
      split <;> rename_i held <;> simp [held]

/-- Entering a key keeps the keys distinct. -/
theorem distinct_put (entries : List (String × α)) (key : String) (value : α)
    (before : Distinct entries) : Distinct (put entries key value) := by
  unfold Distinct at *
  rw [keys_put]
  split
  · exact before
  · rename_i absent
    exact List.nodup_append.2 ⟨before, by simp, fun a held b added => by
      rw [List.mem_singleton.1 added]
      exact fun same => absent (same ▸ held)⟩

end TypedTree.Entries
