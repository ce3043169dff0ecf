import Mathlib.Data.List.Basic

/-!
# The bytes of texts

A text is written as the UTF-8 encodings of its characters, one after the other. The bytes determine
the text, the byte 255 is not among them, and a first byte below 128 is the code of the first
character.
-/

namespace TypedTree.Text

/-- Reading bytes one by one gives what is read so far and what is left. -/
theorem byteArray_loop_eq (bytes : ByteArray) (position : Nat) (read : List UInt8) :
    ByteArray.toList.loop bytes position read =
      read.reverse ++ bytes.data.toList.drop position := by
  fun_induction ByteArray.toList.loop bytes position read with
  | case1 position read more ih =>
    have inside : position < bytes.data.toList.length := by simpa using more
    rw [ih, List.drop_eq_getElem_cons inside]
    simp [ByteArray.get!, more]
  | case2 position read done =>
    rw [List.drop_eq_nil_of_le (by simpa using Nat.le_of_not_lt done)]
    simp

/-- The bytes of an array in order. -/
theorem byteArray_toList (bytes : ByteArray) : bytes.toList = bytes.data.toList := by
  rw [ByteArray.toList, byteArray_loop_eq]
  rfl

/-- The bytes of a text are the encodings of its characters. -/
theorem toUTF8_toList (text : String) :
    text.toUTF8.toList = text.toList.flatMap String.utf8EncodeChar := by
  conv => lhs; rw [← String.ofList_toList (s := text)]
  rw [String.toUTF8_eq_toByteArray, String.toByteArray_ofList, byteArray_toList]
  simp [List.utf8Encode]

/-- Texts of the same bytes are the same. -/
theorem eq_of_bytes_eq {a b : String} (same : a.toUTF8.toList = b.toUTF8.toList) : a = b := by
  rw [byteArray_toList, byteArray_toList, Array.toList_inj] at same
  rw [← String.toByteArray_inj, ← String.toUTF8_eq_toByteArray, ← String.toUTF8_eq_toByteArray]
  exact ByteArray.ext same

/-- The encoding of a character below 128 is its code; others begin with a byte above that. -/
theorem utf8EncodeChar_cases (c : Char) :
    (c.toNat < 128 ∧ String.utf8EncodeChar c = [UInt8.ofNat c.toNat]) ∨
      ∃ first rest, String.utf8EncodeChar c = first :: rest ∧ 128 ≤ first := by
  by_cases single : c.toNat ≤ 127
  · exact .inl ⟨Nat.lt_succ_of_le single, by simp [String.utf8EncodeChar, single]⟩
  · right
    simp only [String.utf8EncodeChar, Char.toNat_val, single, ↓reduceIte]
    split
    · exact ⟨_, _, rfl, by simp [UInt8.le_iff_toNat_le]; omega⟩
    · split
      · exact ⟨_, _, rfl, by simp [UInt8.le_iff_toNat_le]; omega⟩
      · exact ⟨_, _, rfl, by simp [UInt8.le_iff_toNat_le]; omega⟩

/-- A byte that is below 255 as a number is not that byte. -/
theorem ne_ofNat {value : Nat} (small : value < 255) : (255 : UInt8) ≠ UInt8.ofNat value := by
  intro same
  have codes : 255 = value % 256 := by simpa using congrArg UInt8.toNat same
  omega

/-- No encoding of a character holds the byte 255. -/
theorem notMem_utf8EncodeChar (c : Char) : (255 : UInt8) ∉ String.utf8EncodeChar c := by
  unfold String.utf8EncodeChar
  dsimp only
  split
  · simp only [List.mem_singleton]
    exact ne_ofNat (by omega)
  · split
    · simp only [List.mem_cons, List.not_mem_nil, or_false, not_or]
      exact ⟨ne_ofNat (by omega), ne_ofNat (by omega)⟩
    · split
      · simp only [List.mem_cons, List.not_mem_nil, or_false, not_or]
        exact ⟨ne_ofNat (by omega), ne_ofNat (by omega), ne_ofNat (by omega)⟩
      · simp only [List.mem_cons, List.not_mem_nil, or_false, not_or]
        exact ⟨ne_ofNat (by omega), ne_ofNat (by omega), ne_ofNat (by omega), ne_ofNat (by omega)⟩

/-- No text holds the byte 255. -/
theorem notMem_bytes (text : String) : (255 : UInt8) ∉ text.toUTF8.toList := by
  rw [toUTF8_toList, List.mem_flatMap]
  rintro ⟨c, _, held⟩
  exact notMem_utf8EncodeChar c held

/-- A first byte below 128 is the code of the first character. -/
theorem exists_first {text : String} {first : UInt8} {rest : List UInt8}
    (same : text.toUTF8.toList = first :: rest) (small : first < 128) :
    ∃ c, text.toList.head? = some c ∧ c.toNat = first.toNat := by
  rw [toUTF8_toList] at same
  cases chars : text.toList with
  | nil => simp [chars] at same
  | cons c others =>
    rw [chars, List.flatMap_cons] at same
    rcases utf8EncodeChar_cases c with ⟨code, single⟩ | ⟨byte, more, several, large⟩
    · rw [single, List.singleton_append] at same
      refine ⟨c, rfl, ?_⟩
      rw [← (List.cons.inj same).1]
      simp
      omega
    · rw [several, List.cons_append] at same
      obtain rfl := (List.cons.inj same).1
      exact absurd small (UInt8.not_lt.2 large)

end TypedTree.Text
