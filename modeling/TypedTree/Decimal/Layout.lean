import TypedTree.Decimal.Basic

/-!
# Writing decimals

A number is written positionally while at most `paddingLimit` zeros have to be filled in on either
side of its digits, and in scientific form beyond that.
-/

namespace TypedTree.Decimal

/-- The most zeros that a positional text fills in. -/
def paddingLimit : Int := 32

/-- The characters of an integer: a minus sign if it is negative, then its digits. -/
def integerChars (value : Int) : List Char :=
  if value < 0 then '-' :: Nat.toDigits 10 value.natAbs else Nat.toDigits 10 value.natAbs

/-- The characters of an integer with a sign on either side; zero counts as positive. -/
def signedChars (value : Int) : List Char :=
  if value < 0 then integerChars value else '+' :: integerChars value

/--
Scientific form: one digit, the others after a point if there are any, and the exponent, written as
`exponentChars` says.
-/
def scientificChars (exponentChars : Int → List Char) (digits : List Char) (point : Int) :
    List Char :=
  match digits with
  | [] => ['0']
  | [lead] => lead :: 'e' :: exponentChars (point - 1)
  | lead :: rest => lead :: '.' :: rest ++ 'e' :: exponentChars (point - 1)

/-- The digits with the point at its position and as many zeros filled in as that takes. -/
def positionalChars (n : Decimal) : List Char :=
  if 0 ≤ n.exponent then n.digits ++ List.replicate n.exponent.toNat '0'
  else if 0 < n.point then n.digits.take n.point.toNat ++ '.' :: n.digits.drop n.point.toNat
  else '0' :: '.' :: List.replicate (-n.point).toNat '0' ++ n.digits

/-- The characters without the sign, positional where `paddingLimit` allows it. -/
def unsignedChars (n : Decimal) : List Char :=
  if n.exponent ≤ paddingLimit ∧ -n.point ≤ paddingLimit then n.positionalChars
  else scientificChars integerChars n.digits n.point

/-- The characters of a decimal; zero is a single digit. -/
def chars (n : Decimal) : List Char :=
  if n.isZero then ['0']
  else if n.negative then '-' :: n.unsignedChars
  else n.unsignedChars

/-- The text of a decimal. -/
def text (n : Decimal) : String := String.ofList n.chars

instance : ToString Decimal := ⟨text⟩

end TypedTree.Decimal
