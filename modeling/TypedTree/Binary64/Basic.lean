/-!
# Finite binary64 numbers

The finite doubles of one sign are counted by rank: rank zero is zero, and each further rank is the
next larger magnitude. The rank is at once the lower 63 bits of the interchange format. Magnitudes
are measured in units of `2 ^ -1074`, the least positive double, so that all of them are natural
numbers and no operation on them rounds.
-/

namespace TypedTree

/-- The number of magnitudes between neighbouring powers of two. -/
def Binary64.binade : Nat := Nat.pow 2 52

/-- The rank just past the largest finite magnitude, where infinity stands. -/
def Binary64.infiniteRank : Nat := 2047 * binade

/-- A finite double: its sign and the rank of its magnitude. Both zeros are doubles. -/
structure Binary64 where
  negative : Bool
  rank : Nat
  finite : rank < Binary64.infiniteRank
  deriving DecidableEq, Repr

namespace Binary64

/-- The power of two by which the significand of a rank is scaled. -/
def scale (rank : Nat) : Nat := rank / binade - 1

/-- The significand of a rank, at most 53 bits long. -/
def significand (rank : Nat) : Nat := rank - scale rank * binade

/-- The magnitude of a rank in units of `2 ^ -1074`. -/
def units (rank : Nat) : Nat := significand rank * Nat.pow 2 (scale rank)

/-- The number of units in the number one. -/
def unitsPerOne : Nat := Nat.pow 2 1074

/-- Whether the magnitude of a rank is a whole number. -/
def isWhole (rank : Nat) : Bool := units rank % unitsPerOne == 0

/-- Zero with the given sign. -/
def zero (negative : Bool) : Binary64 := ⟨negative, 0, by decide⟩

instance : Inhabited Binary64 := ⟨zero false⟩

/-- The place value of the sign in the interchange bits. -/
def signBit : Nat := Nat.pow 2 63

/-- The double with the given interchange bits, unless they encode an infinity or no number. -/
def ofBits? (bits : UInt64) : Option Binary64 :=
  let rank := bits.toNat % signBit
  if finite : rank < infiniteRank then some ⟨decide (signBit ≤ bits.toNat), rank, finite⟩ else none

/-- The interchange bits of a double. -/
def toBits (x : Binary64) : UInt64 :=
  UInt64.ofNat (if x.negative then signBit + x.rank else x.rank)

end Binary64
end TypedTree
