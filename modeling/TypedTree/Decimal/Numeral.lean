import TypedTree.Decimal.Basic
import TypedTree.Text.Quoted

/-!
# Reading numerals

A numeral is an optional sign, ASCII digits with at most one point and at least one digit in all,
and optionally `e` or `E` with a signed exponent. For a decimal, the exponent as written, the
exponent after the fraction digits are taken off, and the exponent after trailing zeros are folded
in must each fit a signed 64-bit word; a numeral whose digits are all zero is zero before the last
of these is asked.
-/

namespace TypedTree.Decimal

/--
The characters before the first one that satisfies `mark`, and those after it if there is one.
-/
def splitAt (mark : Char → Bool) : List Char → List Char × Option (List Char)
  | [] => ([], none)
  | c :: rest =>
    if mark c then ([], some rest)
    else
      let (before, after) := splitAt mark rest
      (c :: before, after)

/-- A leading sign and the rest; no sign means positive. -/
def readSign : List Char → Bool × List Char
  | '-' :: rest => (true, rest)
  | '+' :: rest => (false, rest)
  | text => (false, text)

/-- The integer that a text writes: an optional sign and at least one digit. -/
def readInteger? (text : List Char) : Option Int :=
  let (negative, body) := readSign text
  if body.isEmpty || !body.all Char.isDigit then none
  else
    let magnitude : Int := Nat.ofDigitChars 10 body 0
    some (if negative then -magnitude else magnitude)

/--
What a numeral spells out: its sign, its digits, how many of these stand behind the point, and its
exponent.
-/
structure Spelling where
  negative : Bool
  digits : List Char
  places : Nat
  exponent : Int
  deriving DecidableEq, Repr

/-- The number that all digits make together. -/
def Spelling.significand (spelling : Spelling) : Nat := Nat.ofDigitChars 10 spelling.digits 0

/-- The power of ten that the last digit counts. -/
def Spelling.lastPlace (spelling : Spelling) : Int := spelling.exponent - spelling.places

/-- What a text spells out; `none` for a text that is no numeral. -/
def readSpelling? (text : List Char) : Option Spelling := do
  let (negative, unsigned) := readSign text
  let (mantissa, exponentText) := splitAt (fun c => c == 'e' || c == 'E') unsigned
  let (whole, fractionText) := splitAt (· == '.') mantissa
  let fraction := fractionText.getD []
  if whole.isEmpty && fraction.isEmpty then none
  else if !whole.all Char.isDigit || !fraction.all Char.isDigit then none
  else
    let exponent ← match exponentText with
      | none => some 0
      | some body => readInteger? body
    some ⟨negative, whole ++ fraction, fraction.length, exponent⟩

/-- The decimal that is spelled out, if its exponents stay within a word. -/
def Spelling.decimal? (spelling : Spelling) : Option Decimal :=
  if !fitsInt64 spelling.exponent || decide (spelling.lastPlace < -int64Bound) then none
  else
    let number := reduce spelling.negative spelling.significand spelling.lastPlace
    if int64Bound ≤ number.exponent then none else some number

/-- The decimal that a numeral denotes; `none` for a text that is no numeral. -/
def readChars? (text : List Char) : Option Decimal := (readSpelling? text).bind Spelling.decimal?

/-- The decimal that a text denotes; `none` for a text that is no numeral. -/
def read? (text : String) : Option Decimal := readChars? text.toList

/-- A text that is no numeral, or that of a decimal whose exponents leave a word. -/
structure ReadError where
  source : String
  deriving DecidableEq, Repr

/-- The wording of the error, with the text quoted. -/
def ReadError.message (error : ReadError) : String :=
  "invalid number literal " ++ Text.quoted error.source

/-- The decimal that a text denotes, or the whole text as an error. -/
def read (text : String) : Except ReadError Decimal :=
  match read? text with
  | some n => .ok n
  | none => .error ⟨text⟩

end TypedTree.Decimal
