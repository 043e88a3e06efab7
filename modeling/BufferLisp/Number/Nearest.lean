import BufferLisp.Number.Binary

/-!
# The double nearest to a fraction

A fraction is rounded once, to the nearest double, and to the one with the even significand when two
are equally near.  The computation is exact: the fraction is scaled to units, the binade is found
from the whole part, and a single division with remainder decides.  A fraction too big for every
finite double gives infinity.
-/

set_option autoImplicit false

namespace BufferLisp

namespace Number

/-- The whole number nearest to `num / den`, the even one of two that are equally near. -/
def roundQuotient (num den : Nat) : Nat :=
  let q := num / den
  let r := num % den
  if 2 * r < den then q
  else if den < 2 * r then q + 1
  else if q % 2 = 0 then q
  else q + 1

/-- The rank of the double nearest to `num / den`. -/
def nearestRank (num den : Nat) : Nat :=
  let scaled := num * unitsPerOne
  let whole := scaled / den
  let s := if whole < 2 * binade then 0 else whole.log2 - 52
  min (s * binade + roundQuotient scaled (den * Nat.pow 2 s)) infinityRank

/-- The rank of the double nearest to `coefficient · 10 ^ exponent`. -/
def nearestRankDecimal (coefficient : Nat) (exponent : Int) : Nat :=
  if 0 ≤ exponent then nearestRank (coefficient * Nat.pow 10 exponent.toNat) 1
  else nearestRank coefficient (Nat.pow 10 (-exponent).toNat)

/-- The double nearest to an integer, unless the integer is too great for every finite double. -/
def ofInt? (i : Int) : Option Float :=
  let rank := nearestRank i.natAbs 1
  if rank < infinityRank then some (ofRank (decide (i < 0)) rank) else none

end Number

end BufferLisp
