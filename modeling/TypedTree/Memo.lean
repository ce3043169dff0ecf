/-!
# Memo tables

A memo table keeps the first value that is stored under a key. Storing under a key that is present
changes nothing and gives back what is there.
-/

namespace TypedTree

/-- Values under distinct keys, latest first. -/
structure Memo (κ α : Type) where
  entries : List (κ × α) := []
  deriving Inhabited

namespace Memo

variable {κ α : Type} [DecidableEq κ]

/-- The table without entries. -/
def empty : Memo κ α := {}

/-- The value under a key. -/
def get? (memo : Memo κ α) (key : κ) : Option α :=
  (memo.entries.find? fun entry => entry.1 = key).map Prod.snd

/-- Stores a value unless the key is present; gives the value that stands under the key then. -/
def store (memo : Memo κ α) (key : κ) (value : α) : α × Memo κ α :=
  match memo.get? key with
  | some present => (present, memo)
  | none => (value, ⟨(key, value) :: memo.entries⟩)

/-- The number of entries. -/
def size (memo : Memo κ α) : Nat := memo.entries.length

/-- After storing, the key holds what was given back and every other key what it held before. -/
theorem get?_store (memo : Memo κ α) (key other : κ) (value : α) :
    (memo.store key value).2.get? other =
      if key = other then some (memo.store key value).1 else memo.get? other := by
  unfold store
  split
  · rename_i present found
    by_cases same : key = other
    · subst same
      simp [found]
    · simp [same]
  · by_cases same : key = other
    · subst same
      simp [get?]
    · simp [get?, same]

end Memo
end TypedTree
