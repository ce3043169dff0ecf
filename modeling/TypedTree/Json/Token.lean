import TypedTree.Json.Literal

/-!
# Tokens of JSON text

The bytes of a JSON text are cut into tokens. Two things are recorded instead of refused, because a
reader that skips a value never asks for them: whether a number is read as a finite double, and
whether a string is Unicode text. Bytes that begin no token are the token `broken`, and end the
list.
-/

namespace TypedTree.Json

/-- One piece of a string: a byte that stands for itself, or an escaped UTF-16 unit. -/
inductive Piece where
  | byte (value : UInt8)
  | unit (value : Nat)
  deriving DecidableEq, Repr

/-- A token of JSON text. -/
inductive Token where
  | openArray
  | closeArray
  | openObject
  | closeObject
  | comma
  | colon
  | null
  | bool (value : Bool)
  /-- A number; without a value if it is read as no finite one. -/
  | number (value : Option Json.Number)
  /-- A string; without a text if its bytes or units are no Unicode text. -/
  | text (value : Option String)
  /-- Bytes that begin no token. -/
  | broken
  deriving Repr

namespace Token

/-- The value of a hexadecimal digit. -/
def hexDigit? (b : UInt8) : Option Nat :=
  if 48 ≤ b ∧ b ≤ 57 then some (b.toNat - 48)
  else if 97 ≤ b ∧ b ≤ 102 then some (b.toNat - 87)
  else if 65 ≤ b ∧ b ≤ 70 then some (b.toNat - 55)
  else none

/-- The UTF-16 unit of four hexadecimal digits. -/
def unit? (a b c d : UInt8) : Option Nat := do
  let a ← hexDigit? a
  let b ← hexDigit? b
  let c ← hexDigit? c
  let d ← hexDigit? d
  some (((a * 16 + b) * 16 + c) * 16 + d)

/-- The byte that a one-letter escape stands for. -/
def escaped? (b : UInt8) : Option UInt8 :=
  if b = 34 ∨ b = 92 ∨ b = 47 then some b
  else if b = 98 then some 8
  else if b = 102 then some 12
  else if b = 110 then some 10
  else if b = 114 then some 13
  else if b = 116 then some 9
  else none

/-- The pieces of a string up to its closing quote, and how many bytes they and the quote take. -/
def readPieces : List UInt8 → Option (List Piece × Nat)
  | [] => none
  | b :: rest =>
    if b = 34 then some ([], 1)
    else if b = 92 then
      match rest with
      | 117 :: h₁ :: h₂ :: h₃ :: h₄ :: rest =>
        match unit? h₁ h₂ h₃ h₄, readPieces rest with
        | some unit, some (pieces, taken) => some (.unit unit :: pieces, taken + 6)
        | _, _ => none
      | letter :: rest =>
        match escaped? letter, readPieces rest with
        | some value, some (pieces, taken) => some (.byte value :: pieces, taken + 2)
        | _, _ => none
      | [] => none
    else if b < 32 then none
    else (readPieces rest).map fun (pieces, taken) => (.byte b :: pieces, taken + 1)

/-- The bytes of a string; a high surrogate unit needs a low one right behind it. -/
def bytesOf? : List Piece → Option (List UInt8)
  | [] => some []
  | .byte value :: rest => (bytesOf? rest).map (value :: ·)
  | .unit high :: rest =>
    if high < 0xD800 ∨ 0xE000 ≤ high then
      (bytesOf? rest).map (String.utf8EncodeChar (Char.ofNat high) ++ ·)
    else
      match rest with
      | .unit low :: rest =>
        if high < 0xDC00 ∧ 0xDC00 ≤ low ∧ low < 0xE000 then
          let point := 0x10000 + (high - 0xD800) * 0x400 + (low - 0xDC00)
          (bytesOf? rest).map (String.utf8EncodeChar (Char.ofNat point) ++ ·)
        else none
      | _ => none

/-- The text of a string, if its bytes are UTF-8. -/
def textOf? (pieces : List Piece) : Option String :=
  (bytesOf? pieces).bind fun bytes => String.fromUTF8? ⟨bytes.toArray⟩

/-- The digits at the front of some bytes. -/
def leadingDigits (bytes : List UInt8) : List Char :=
  (bytes.takeWhile fun b => 48 ≤ b && b ≤ 57).map fun b => Char.ofNat b.toNat

/-- The fraction digits after a point, and how many bytes they and the point take. -/
def readFraction? : List UInt8 → Option (List Char × Nat)
  | 46 :: rest =>
    let digits := leadingDigits rest
    if digits.isEmpty then none else some (digits, digits.length + 1)
  | _ => some ([], 0)

/-- The value of the exponent after its letter, and how many bytes it takes. -/
def readPower? (bytes : List UInt8) : Option (Int × Nat) :=
  let (negative, signLength) := match bytes with
    | 45 :: _ => (true, 1)
    | 43 :: _ => (false, 1)
    | _ => (false, 0)
  let digits := leadingDigits (bytes.drop signLength)
  let magnitude : Int := Nat.ofDigitChars 10 digits 0
  if digits.isEmpty then none
  else some (if negative then -magnitude else magnitude, signLength + digits.length)

/-- The exponent behind `e` or `E`, and how many bytes it and the letter take. -/
def readExponent? : List UInt8 → Option (Int × Nat)
  | b :: rest =>
    if b = 101 ∨ b = 69 then (readPower? rest).map fun (power, taken) => (power, taken + 1)
    else some (0, 0)
  | [] => some (0, 0)

/--
The number literal whose digits begin here, and how many bytes it takes. A leading zero stands
alone, and a point and an exponent letter need a digit behind them.
-/
def readNumber? (negative : Bool) (bytes : List UInt8) : Option (Option Json.Number × Nat) := do
  let whole := leadingDigits bytes
  if whole.isEmpty || (whole.head? == some '0' && 1 < whole.length) then none
  else
    let (fraction, fractionLength) ← readFraction? (bytes.drop whole.length)
    let mantissaLength := whole.length + fractionLength
    let (power, powerLength) ← readExponent? (bytes.drop mantissaLength)
    let plain := fractionLength + powerLength == 0
    let literal : Literal := { negative, whole, fraction, power, plain }
    some (literal.number?, mantissaLength + powerLength)

/-- Whether the bytes continue with an ASCII word. -/
def continues (word : String) (bytes : List UInt8) : Bool := word.toUTF8.toList.isPrefixOf bytes

end Token

/-- The tokens of a text in order; nothing is read past bytes that begin no token. -/
def tokens : List UInt8 → List Token
  | [] => []
  | b :: rest =>
    if b = 32 ∨ b = 10 ∨ b = 9 ∨ b = 13 then tokens rest
    else if b = 91 then .openArray :: tokens rest
    else if b = 93 then .closeArray :: tokens rest
    else if b = 123 then .openObject :: tokens rest
    else if b = 125 then .closeObject :: tokens rest
    else if b = 44 then .comma :: tokens rest
    else if b = 58 then .colon :: tokens rest
    else if b = 110 ∧ Token.continues "ull" rest then .null :: tokens (rest.drop 3)
    else if b = 116 ∧ Token.continues "rue" rest then .bool true :: tokens (rest.drop 3)
    else if b = 102 ∧ Token.continues "alse" rest then .bool false :: tokens (rest.drop 4)
    else if b = 34 then
      match Token.readPieces rest with
      | some (pieces, taken) => .text (Token.textOf? pieces) :: tokens (rest.drop taken)
      | none => [.broken]
    else
      let negative := b = 45
      let signLength := if negative then 1 else 0
      match Token.readNumber? negative ((b :: rest).drop signLength) with
      | some (value, taken) => .number value :: tokens (rest.drop (signLength + taken - 1))
      | none => [.broken]
termination_by bytes => bytes.length
decreasing_by all_goals simp only [List.length_drop, List.length_cons]; omega

end TypedTree.Json
