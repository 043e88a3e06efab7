/-!
# Doubles as exact integers

A finite double is a whole number of *units* of 2⁻¹⁰⁷⁴, the least positive double, with a sign.  The
bit pattern without its sign bit numbers the nonnegative doubles in increasing order, so a pattern
is called the *rank* of its double: rank 0 is zero, `infinityRank` is infinity, and the ranks beyond
it are no numbers.  Reading, printing and truncating numbers are exact computations on ranks and
units.
-/

set_option autoImplicit false

namespace BufferLisp

namespace Number

/-- The number of doubles in each binade, and the rank of the least normal double. -/
def binade : Nat := Nat.pow 2 52

/-- How many binary places behind the point a double can have: a unit is one in the last of them. -/
def unitPlaces : Nat := 1074

/-- How many units make one. -/
def unitsPerOne : Nat := Nat.pow 2 unitPlaces

/-- The rank of infinity. -/
def infinityRank : Nat := 0x7FF * binade

/-- The bit that makes a double negative. -/
def signBit : Nat := Nat.pow 2 63

/-- The rank of the absolute value of a double. -/
def rank (x : Float) : Nat :=
  x.toBits.toNat % signBit

/-- Whether the sign bit of a double is set. -/
def isNegative (x : Float) : Bool :=
  decide (signBit ≤ x.toBits.toNat)

/-- The double of a sign and a rank. -/
def ofRank (negative : Bool) (rank : Nat) : Float :=
  Float.ofBits (UInt64.ofNat ((if negative then signBit else 0) + rank))

/-- How far the significand of a rank is shifted: ranks below two binades count single units. -/
def shift (rank : Nat) : Nat :=
  rank / binade - 1

/-- The value of a finite rank in units. -/
def units (rank : Nat) : Nat :=
  (rank - shift rank * binade) * Nat.pow 2 (shift rank)

/-- The double that is no number. -/
def nan : Float := 0.0 / 0.0

/-- Whether a double is no number. -/
def isNaN (x : Float) : Bool :=
  decide (infinityRank < rank x)

/-- Whether a double is neither infinite nor NaN. -/
def isFinite (x : Float) : Bool :=
  decide (rank x < infinityRank)

/-- Whether two doubles are equal as numbers: they are the same double or both zero. NaN is equal
to nothing, itself included. -/
def equal (x y : Float) : Bool :=
  decide (rank x ≤ infinityRank) && rank x == rank y &&
    (rank x == 0 || isNegative x == isNegative y)

/-- The whole part of a finite double, rounded toward zero. -/
def truncate (x : Float) : Int :=
  let whole : Int := units (rank x) / unitsPerOne
  if isNegative x then -whole else whole

end Number

end BufferLisp
