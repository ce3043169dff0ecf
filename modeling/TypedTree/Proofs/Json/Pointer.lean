import Mathlib.Data.List.Infix
import TypedTree.Json.Pointer

/-!
# Escapes in pointers

Reading a segment takes each of its escapes for one character. A segment without escapes is read as
it stands, and one with an escape is read as something shorter. A text that is written as a segment
is read back: slashes are restored first, and then the tilde of an escape is never taken for the
beginning of another one.
-/

namespace TypedTree.Json.Pointer

/-- Every tilde before the code of an escape, together with the code, as the character. -/
def restore (code character : Char) : List Char → List Char
  | [] => []
  | [c] => [c]
  | c :: d :: rest =>
    if c = '~' ∧ d = code then character :: restore code character rest
    else c :: restore code character (d :: rest)

/-- Slashes are restored from their escape. -/
theorem restoreSlashes_eq (text : List Char) : restoreSlashes text = restore '1' '/' text := by
  fun_induction restoreSlashes text with
  | case1 rest ih => rw [restore, if_pos ⟨rfl, rfl⟩, ih]
  | case2 c rest other ih =>
    cases rest with
    | nil => rfl
    | cons d rest =>
      have apart : ¬ (c = '~' ∧ d = '1') := by
        rintro ⟨rfl, rfl⟩
        exact other rest rfl rfl
      rw [restore, if_neg apart, ih]
  | case3 => rfl

/-- Tildes are restored from their escape. -/
theorem restoreTildes_eq (text : List Char) : restoreTildes text = restore '0' '~' text := by
  fun_induction restoreTildes text with
  | case1 rest ih => rw [restore, if_pos ⟨rfl, rfl⟩, ih]
  | case2 c rest other ih =>
    cases rest with
    | nil => rfl
    | cons d rest =>
      have apart : ¬ (c = '~' ∧ d = '0') := by
        rintro ⟨rfl, rfl⟩
        exact other rest rfl rfl
      rw [restore, if_neg apart, ih]
  | case3 => rfl

section Restoring

variable {code character : Char} {text : List Char}

/-- An escape at the front or behind the first character. -/
theorem escape_infix_cons {c d : Char} {rest : List Char} :
    ['~', code] <:+: c :: d :: rest ↔ (c = '~' ∧ d = code) ∨ ['~', code] <:+: d :: rest := by
  rw [List.infix_cons_iff, List.cons_prefix_cons, List.cons_prefix_cons]
  simp [eq_comm]

/-- Restoring an escape adds nothing. -/
theorem length_restore_le (code character : Char) (text : List Char) :
    (restore code character text).length ≤ text.length := by
  fun_induction restore code character text with
  | case1 => simp
  | case2 => simp
  | case3 c d rest hit ih =>
    simp only [List.length_cons]
    omega
  | case4 c d rest miss ih =>
    simp only [List.length_cons] at ih ⊢
    omega

/-- A text without the escape stays what it is. -/
theorem restore_of_absent (absent : ¬ ['~', code] <:+: text) :
    restore code character text = text := by
  fun_induction restore code character text with
  | case1 => rfl
  | case2 => rfl
  | case3 c d rest hit ih => exact absurd (escape_infix_cons.2 (.inl hit)) absent
  | case4 c d rest miss ih => rw [ih fun below => absent (escape_infix_cons.2 (.inr below))]

/-- A text with the escape gets shorter. -/
theorem length_restore_lt (present : ['~', code] <:+: text) :
    (restore code character text).length < text.length := by
  fun_induction restore code character text with
  | case1 => simp at present
  | case2 c => exact absurd present.length_le (by simp)
  | case3 c d rest hit ih =>
    have rest := length_restore_le code character rest
    simp only [List.length_cons]
    omega
  | case4 c d rest miss ih =>
    have below := ih ((escape_infix_cons.1 present).resolve_left miss)
    simp only [List.length_cons] at below ⊢
    omega

end Restoring

/-- A segment is read as it stands exactly when it has none of the two escapes. -/
theorem unescape_eq_self_iff (segment : List Char) :
    unescape segment = segment ↔ ¬ ['~', '0'] <:+: segment ∧ ¬ ['~', '1'] <:+: segment := by
  rw [unescape, restoreTildes_eq, restoreSlashes_eq]
  by_cases slash : ['~', '1'] <:+: segment
  · have shorter : (restore '1' '/' segment).length < segment.length := length_restore_lt slash
    have shortest := length_restore_le '0' '~' (restore '1' '/' segment)
    have changed : restore '0' '~' (restore '1' '/' segment) ≠ segment := by
      intro same
      rw [same] at shortest
      omega
    simp [changed, slash]
  · rw [restore_of_absent slash]
    by_cases tilde : ['~', '0'] <:+: segment
    · have shorter : (restore '0' '~' segment).length < segment.length := length_restore_lt tilde
      have changed : restore '0' '~' segment ≠ segment := by
        intro same
        rw [same] at shorter
        omega
      simp [changed, tilde]
    · simp [restore_of_absent tilde, tilde, slash]

/-! ## Texts written as segments -/

section Escaping

variable {code character : Char} {text : List Char}

/-- A character that begins no escape is left as it is. -/
theorem restore_cons {c : Char} (plain : c ≠ '~') (text : List Char) :
    restore code character (c :: text) = c :: restore code character text := by
  cases text with
  | nil => rfl
  | cons d rest => rw [restore, if_neg fun escape => plain escape.1]

/-- An escape is taken for its character. -/
theorem restore_escape (text : List Char) :
    restore code character ('~' :: code :: text) = character :: restore code character text := by
  rw [restore, if_pos ⟨rfl, rfl⟩]

/-- A text is escaped character by character. -/
theorem escape_cons (c : Char) (text : List Char) :
    escape (c :: text) =
      (if c = '~' then ['~', '0'] else if c = '/' then ['~', '1'] else [c]) ++ escape text :=
  List.flatMap_cons

/-- An escaped text whose slashes are restored has the escapes of its tildes left. -/
theorem restore_slashes_escape (text : List Char) :
    restore '1' '/' (escape text) =
      text.flatMap fun c => if c = '~' then ['~', '0'] else [c] := by
  induction text with
  | nil => rfl
  | cons c rest ih =>
    rw [escape_cons, List.flatMap_cons, ← ih]
    by_cases tilde : c = '~'
    · -- the code behind the tilde is that of a tilde, so the two stay as they are
      rw [if_pos tilde, if_pos tilde]
      show restore '1' '/' ('~' :: '0' :: escape rest) = _
      rw [restore, if_neg (by decide), restore_cons (by decide)]
      rfl
    rw [if_neg tilde, if_neg tilde]
    by_cases slash : c = '/'
    · rw [if_pos slash, slash]
      exact restore_escape (escape rest)
    · rw [if_neg slash]
      exact restore_cons tilde (escape rest)

/-- A text is read back from the segment that it is written as. -/
theorem unescape_escape (text : List Char) : unescape (escape text) = text := by
  rw [unescape, restoreTildes_eq, restoreSlashes_eq, restore_slashes_escape]
  induction text with
  | nil => rfl
  | cons c rest ih =>
    rw [List.flatMap_cons]
    by_cases tilde : c = '~'
    · rw [if_pos tilde, tilde]
      exact (restore_escape _).trans (congrArg ('~' :: ·) ih)
    · rw [if_neg tilde]
      exact (restore_cons tilde _).trans (congrArg (c :: ·) ih)

/-- Escapes are written with tildes and digits, so every other character is one of the text. -/
theorem mem_escape_iff {c : Char} (other : c ∉ ['~', '0', '1', '/']) :
    c ∈ escape text ↔ c ∈ text := by
  have apart : c ≠ '~' ∧ c ≠ '0' ∧ c ≠ '1' ∧ c ≠ '/' := by simpa using other
  have each (d : Char) :
      (c ∈ if d = '~' then ['~', '0'] else if d = '/' then ['~', '1'] else [d]) ↔ c = d := by
    by_cases tilde : d = '~'
    · simp [tilde, apart]
    · by_cases slash : d = '/' <;> simp [tilde, slash, apart]
  simp [escape, List.mem_flatMap, each]

/-- Only the empty text is written as the empty segment. -/
theorem escape_eq_nil_iff : escape text = [] ↔ text = [] := by
  constructor
  · intro empty
    rw [← unescape_escape text, empty]
    rfl
  · rintro rfl
    rfl

end Escaping

end TypedTree.Json.Pointer
