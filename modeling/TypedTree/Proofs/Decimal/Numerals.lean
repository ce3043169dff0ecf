import TypedTree.Decimal.Numeral
import TypedTree.Proofs.Decimal.Reduction

/-!
# Numerals

The grammar of numerals, apart from their reader: a sign, digits with at most one point among them,
and an exponent behind a letter. A text spells something out exactly when it is a numeral, and what
it spells out is what the parts of the numeral say.
-/

namespace TypedTree.Decimal

/-! ## Texts cut at a mark -/

theorem splitAt_of_absent {mark : Char → Bool} {text : List Char}
    (absent : ∀ c ∈ text, mark c = false) : splitAt mark text = (text, none) := by
  induction text with
  | nil => rfl
  | cons c rest ih =>
    obtain ⟨here, there⟩ := List.forall_mem_cons.1 absent
    simp [splitAt, here, ih there]

theorem splitAt_append {mark : Char → Bool} {before : List Char}
    (absent : ∀ c ∈ before, mark c = false) {c : Char} (marked : mark c = true)
    (after : List Char) : splitAt mark (before ++ c :: after) = (before, some after) := by
  induction before with
  | nil => simp [splitAt, marked]
  | cons first rest ih =>
    obtain ⟨here, there⟩ := List.forall_mem_cons.1 absent
    simp [splitAt, here, ih there]

/-- A text is cut at nothing, or at a character that is a mark. -/
theorem eq_of_splitAt {mark : Char → Bool} {text before : List Char} {after : Option (List Char)}
    (cut : splitAt mark text = (before, after)) :
    (after = none ∧ text = before) ∨
      ∃ c rest, mark c = true ∧ after = some rest ∧ text = before ++ c :: rest := by
  induction text generalizing before with
  | nil =>
    obtain ⟨rfl, rfl⟩ := Prod.mk.inj cut
    exact .inl ⟨rfl, rfl⟩
  | cons c rest ih =>
    unfold splitAt at cut
    by_cases marked : mark c = true
    · rw [if_pos marked] at cut
      obtain ⟨rfl, rfl⟩ := Prod.mk.inj cut
      exact .inr ⟨c, rest, marked, rfl, rfl⟩
    · rw [if_neg marked] at cut
      obtain ⟨rfl, rfl⟩ := Prod.mk.inj cut
      rcases ih rfl with ⟨whole, same⟩ | ⟨c', rest', marked', found, same⟩
      · exact .inl ⟨whole, congrArg (c :: ·) same⟩
      · exact .inr ⟨c', rest', marked', found, congrArg (c :: ·) same⟩

/-- No digit is a mark that is no digit. -/
theorem beq_of_isDigit {c mark : Char} (digit : c.isDigit = true) (other : mark.isDigit = false) :
    (c == mark) = false := by
  apply beq_false_of_ne
  rintro rfl
  rw [digit] at other
  cases other

/-- The letters that an exponent stands behind. -/
def isExponentMark (c : Char) : Bool := c == 'e' || c == 'E'

theorem isExponentMark_of_isDigit {c : Char} (digit : c.isDigit = true) :
    isExponentMark c = false := by
  unfold isExponentMark
  rw [beq_of_isDigit digit (by decide), beq_of_isDigit digit (by decide), Bool.or_self]

/-! ## Signs -/

/-- A sign as it may stand before digits, or none. -/
inductive Sign where
  | absent
  | plus
  | minus
  deriving DecidableEq, Repr

namespace Sign

/-- The sign as it is written. -/
def chars : Sign → List Char
  | absent => []
  | plus => ['+']
  | minus => ['-']

/-- Only a written minus makes a number negative. -/
def negative : Sign → Bool
  | minus => true
  | _ => false

/-- A magnitude with the sign. -/
def applied (sign : Sign) (magnitude : Nat) : Int :=
  if sign.negative then -(magnitude : Int) else magnitude

end Sign

/-- A sign is read off a text that does not go on with another one. -/
theorem readSign_append (sign : Sign) {c : Char} (rest : List Char) (plain : c ≠ '-' ∧ c ≠ '+') :
    readSign (sign.chars ++ c :: rest) = (sign.negative, c :: rest) := by
  cases sign with
  | absent =>
    show readSign (c :: rest) = (false, c :: rest)
    unfold readSign
    split
    · rename_i same
      exact absurd (List.cons.inj same).1 plain.1
    · rename_i same
      exact absurd (List.cons.inj same).1 plain.2
    · rfl
  | plus => rfl
  | minus => rfl

/-- Whatever is read, a sign was read first. -/
theorem exists_sign {text rest : List Char} {negative : Bool}
    (signed : readSign text = (negative, rest)) :
    ∃ sign : Sign, sign.negative = negative ∧ text = sign.chars ++ rest := by
  unfold readSign at signed
  split at signed <;> obtain ⟨rfl, rfl⟩ := Prod.mk.inj signed
  · exact ⟨.minus, rfl, rfl⟩
  · exact ⟨.plus, rfl, rfl⟩
  · exact ⟨.absent, rfl, rfl⟩

/-- No digit is a sign. -/
theorem ne_sign_of_isDigit {c : Char} (digit : c.isDigit = true) : c ≠ '-' ∧ c ≠ '+' := by
  constructor <;> (rintro rfl; cases digit)

/-! ## Exponents -/

/-- The exponent of a numeral: a letter, a sign and at least one digit. -/
structure Exponent where
  capital : Bool
  sign : Sign
  digits : List Char
  present : digits ≠ []
  decimal : ∀ c ∈ digits, c.isDigit = true

namespace Exponent

/-- The letter that the exponent stands behind. -/
def letter (exponent : Exponent) : Char := if exponent.capital then 'E' else 'e'

/-- The exponent as it is written. -/
def chars (exponent : Exponent) : List Char :=
  exponent.letter :: (exponent.sign.chars ++ exponent.digits)

/-- The power of ten that the exponent says. -/
def value (exponent : Exponent) : Int :=
  exponent.sign.applied (Nat.ofDigitChars 10 exponent.digits 0)

theorem isExponentMark_letter (exponent : Exponent) : isExponentMark exponent.letter = true := by
  unfold letter
  cases exponent.capital <;> rfl

/-- The letter of an exponent is the mark that it was found behind. -/
theorem letter_eq (exponent : Exponent) {c : Char} (marked : isExponentMark c = true)
    (capital : exponent.capital = (c == 'E')) : exponent.letter = c := by
  unfold letter
  rw [capital]
  rcases Bool.or_eq_true_iff.1 marked with lower | upper
  · rw [eq_of_beq lower]
    rfl
  · rw [eq_of_beq upper]
    rfl

/-- The reader gives the value of an exponent. -/
theorem read (exponent : Exponent) :
    readInteger? (exponent.sign.chars ++ exponent.digits) = some exponent.value := by
  obtain ⟨capital, sign, digits, present, decimal⟩ := exponent
  obtain ⟨c, rest, rfl⟩ := List.exists_cons_of_ne_nil present
  have plain := ne_sign_of_isDigit (decimal c List.mem_cons_self)
  have all : (c :: rest).all Char.isDigit = true := List.all_eq_true.2 decimal
  simp only [readInteger?, readSign_append sign rest plain, all, List.isEmpty_cons, Bool.not_true,
    Bool.or_self, Bool.false_eq_true, ↓reduceIte]
  rfl

end Exponent

/-- A text that is read as an exponent is the rest of one behind its letter. -/
theorem exists_exponent {text : List Char} {value : Int} (read : readInteger? text = some value)
    (capital : Bool) : ∃ exponent : Exponent, exponent.capital = capital ∧
      text = exponent.sign.chars ++ exponent.digits ∧ exponent.value = value := by
  unfold readInteger? at read
  rcases signed : readSign text with ⟨negative, body⟩
  simp only [signed, Option.ite_none_left_eq_some, Bool.or_eq_true, Bool.not_eq_true', not_or,
    Option.some.injEq, List.isEmpty_iff, Bool.not_eq_false] at read
  obtain ⟨⟨present, all⟩, rfl⟩ := read
  obtain ⟨sign, rfl, same⟩ := exists_sign signed
  exact ⟨⟨capital, sign, body, present, List.all_eq_true.1 all⟩, rfl, same, rfl⟩

/-! ## Numerals -/

/--
A numeral: a sign, digits with at most one point among them and at least one digit in all, and an
exponent.
-/
structure Numeral where
  sign : Sign
  whole : List Char
  /-- The digits behind the point, if there is a point. -/
  fraction : Option (List Char)
  exponent : Option Exponent
  present : whole ++ fraction.getD [] ≠ []
  decimal : ∀ c ∈ whole ++ fraction.getD [], c.isDigit = true

namespace Numeral

variable (numeral : Numeral)

/-- The digits before and behind the point. -/
def digits : List Char := numeral.whole ++ numeral.fraction.getD []

theorem isDigit_of_mem_digits {c : Char} (held : c ∈ numeral.digits) : c.isDigit = true :=
  numeral.decimal c held

/-- The number of digits behind the point. -/
def places : Nat := (numeral.fraction.getD []).length

/-- The exponent as written; zero without one. -/
def power : Int := (numeral.exponent.map Exponent.value).getD 0

/-- The digits with the point as they are written. -/
def mantissaChars : List Char := numeral.whole ++ (numeral.fraction.map ('.' :: ·)).getD []

/-- The numeral as it is written. -/
def chars : List Char :=
  numeral.sign.chars ++ (numeral.mantissaChars ++ (numeral.exponent.map Exponent.chars).getD [])

/-- The numeral as a text. -/
def text : String := String.ofList numeral.chars

/-- What the parts of a numeral say. -/
def spelling : Spelling :=
  ⟨numeral.sign.negative, numeral.digits, numeral.places, numeral.power⟩

/-- A numeral begins with a digit or a point behind its sign. -/
theorem exists_mantissaChars_cons :
    ∃ c rest, numeral.mantissaChars = c :: rest ∧ c ≠ '-' ∧ c ≠ '+' := by
  obtain ⟨sign, whole, fraction, exponent, present, decimal⟩ := numeral
  cases whole with
  | cons c rest =>
    exact ⟨c, _, rfl, ne_sign_of_isDigit (decimal c (List.mem_append_left _ List.mem_cons_self))⟩
  | nil =>
    cases fraction with
    | none => exact absurd rfl present
    | some fraction => exact ⟨'.', fraction, rfl, by decide, by decide⟩

/-- The letter of an exponent does not occur before the exponent. -/
theorem isExponentMark_of_mem {c : Char} (held : c ∈ numeral.mantissaChars) :
    isExponentMark c = false := by
  obtain ⟨sign, whole, fraction, exponent, present, decimal⟩ := numeral
  rcases List.mem_append.1 held with before | after
  · exact isExponentMark_of_isDigit (decimal c (List.mem_append_left _ before))
  · cases fraction with
    | none => cases after
    | some fraction =>
      rcases List.mem_cons.1 after with rfl | behind
      · rfl
      · exact isExponentMark_of_isDigit (decimal c (List.mem_append_right _ behind))

/-- A numeral is cut into mantissa and exponent. -/
theorem splitAt_chars :
    splitAt isExponentMark
        (numeral.mantissaChars ++ (numeral.exponent.map Exponent.chars).getD []) =
      (numeral.mantissaChars,
        numeral.exponent.map fun exponent => exponent.sign.chars ++ exponent.digits) := by
  have absent : ∀ c ∈ numeral.mantissaChars, isExponentMark c = false := fun c =>
    numeral.isExponentMark_of_mem
  cases numeral.exponent with
  | none =>
    show splitAt isExponentMark (numeral.mantissaChars ++ []) = _
    rw [List.append_nil]
    exact splitAt_of_absent absent
  | some exponent => exact splitAt_append absent exponent.isExponentMark_letter _

/-- A mantissa is cut at its point. -/
theorem splitAt_mantissaChars :
    splitAt (· == '.') numeral.mantissaChars = (numeral.whole, numeral.fraction) := by
  have absent : ∀ c ∈ numeral.whole, (c == '.') = false := fun c held =>
    beq_of_isDigit (numeral.decimal c (List.mem_append_left _ held)) (by decide)
  unfold mantissaChars
  cases numeral.fraction with
  | none =>
    show splitAt _ (numeral.whole ++ []) = _
    rw [List.append_nil]
    exact splitAt_of_absent absent
  | some fraction => exact splitAt_append absent rfl fraction

/-- A numeral spells out what its parts say. -/
theorem readSpelling?_chars : readSpelling? numeral.chars = some numeral.spelling := by
  obtain ⟨c, rest, begins, plain⟩ := numeral.exists_mantissaChars_cons
  have signed : readSign numeral.chars = (numeral.sign.negative,
      numeral.mantissaChars ++ (numeral.exponent.map Exponent.chars).getD []) := by
    unfold chars
    rw [begins]
    exact readSign_append numeral.sign _ plain
  have cut := numeral.splitAt_chars
  unfold isExponentMark at cut
  have some : (numeral.whole.isEmpty && (numeral.fraction.getD []).isEmpty) = false := by
    apply Bool.eq_false_iff.2
    intro none
    rw [Bool.and_eq_true, List.isEmpty_iff, List.isEmpty_iff] at none
    exact numeral.present (List.append_eq_nil_iff.2 none)
  have whole : numeral.whole.all Char.isDigit = true :=
    List.all_eq_true.2 fun c held => numeral.decimal c (List.mem_append_left _ held)
  have fraction : (numeral.fraction.getD []).all Char.isDigit = true :=
    List.all_eq_true.2 fun c held => numeral.decimal c (List.mem_append_right _ held)
  unfold readSpelling?
  simp only [signed, cut, numeral.splitAt_mantissaChars, some, whole, fraction, Bool.not_true,
    Bool.or_self, Bool.false_eq_true, ↓reduceIte]
  unfold spelling power
  cases numeral.exponent with
  | none => rfl
  | some exponent =>
    simp only [Option.map_some, exponent.read]
    rfl

end Numeral

/-- A text that spells something out is a numeral. -/
theorem exists_numeral {text : List Char} {spelling : Spelling}
    (read : readSpelling? text = some spelling) :
    ∃ numeral : Numeral, numeral.chars = text ∧ numeral.spelling = spelling := by
  unfold readSpelling? at read
  rcases signed : readSign text with ⟨negative, unsigned⟩
  rcases cut : splitAt (fun c => c == 'e' || c == 'E') unsigned with ⟨mantissa, exponentText⟩
  rcases point : splitAt (· == '.') mantissa with ⟨whole, fraction⟩
  simp only [signed, cut, point, Option.ite_none_left_eq_some, Bool.and_eq_true, List.isEmpty_iff,
    Bool.or_eq_true, Bool.not_eq_true', not_or, Bool.not_eq_false] at read
  obtain ⟨present, ⟨all, others⟩, read⟩ := read
  obtain ⟨sign, rfl, rfl⟩ := exists_sign signed
  have some : whole ++ fraction.getD [] ≠ [] := fun none =>
    present (List.append_eq_nil_iff.1 none)
  have decimal : ∀ c ∈ whole ++ fraction.getD [], c.isDigit = true := fun c held =>
    (List.mem_append.1 held).elim (List.all_eq_true.1 all c) (List.all_eq_true.1 others c)
  have pointed : mantissa = whole ++ (fraction.map ('.' :: ·)).getD [] := by
    rcases eq_of_splitAt point with ⟨rfl, rfl⟩ | ⟨c, rest, marked, rfl, rfl⟩
    · exact (List.append_nil _).symm
    · rw [eq_of_beq marked]
      rfl
  rcases eq_of_splitAt cut with ⟨rfl, rfl⟩ | ⟨c, rest, marked, rfl, rfl⟩
  · obtain rfl := Option.some.inj read
    refine ⟨⟨sign, whole, fraction, none, some, decimal⟩, ?_, rfl⟩
    show sign.chars ++ (_ ++ []) = _
    rw [List.append_nil, pointed]
    rfl
  · obtain ⟨power, own, made⟩ := Option.bind_eq_some_iff.1 read
    obtain rfl := Option.some.inj made
    obtain ⟨exponent, capital, rfl, rfl⟩ := exists_exponent own (c == 'E')
    refine ⟨⟨sign, whole, fraction, exponent, some, decimal⟩, ?_, rfl⟩
    rw [pointed, ← exponent.letter_eq marked capital]
    rfl

/-! ## The decimals that are spelled out -/

theorem fitsInt64_iff {value : Int} :
    fitsInt64 value = true ↔ -int64Bound ≤ value ∧ value < int64Bound := by
  simp [fitsInt64]

namespace Spelling

/-- The decimal that is spelled out, of whatever exponent. -/
def number (spelling : Spelling) : Decimal :=
  reduce spelling.negative spelling.significand spelling.lastPlace

/-- The exponents on the way to the decimal stay within a word. -/
def Fits (spelling : Spelling) : Prop :=
  fitsInt64 spelling.exponent = true ∧ -int64Bound ≤ spelling.lastPlace ∧
    spelling.number.exponent < int64Bound

/-- The decimal that is spelled out is read where its exponents stay within a word. -/
theorem decimal?_eq_some_iff {spelling : Spelling} {n : Decimal} :
    spelling.decimal? = some n ↔ spelling.Fits ∧ n = spelling.number := by
  simp only [decimal?, Option.ite_none_left_eq_some, Bool.or_eq_true, Bool.not_eq_true',
    decide_eq_true_eq, not_or, Bool.not_eq_false, Int.not_lt, Int.not_le, Option.some.injEq, Fits,
    number, and_assoc, @eq_comm _ n]

end Spelling

/-- A numeral is read as the decimal that it spells out, where the exponents stay within a word. -/
theorem Numeral.readChars?_chars (numeral : Numeral) (n : Decimal) :
    readChars? numeral.chars = some n ↔ numeral.spelling.Fits ∧ n = numeral.spelling.number := by
  unfold readChars?
  rw [numeral.readSpelling?_chars, Option.bind_some, Spelling.decimal?_eq_some_iff]

end TypedTree.Decimal
