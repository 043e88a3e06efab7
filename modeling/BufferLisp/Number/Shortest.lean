import BufferLisp.Number.Nearest

/-!
# The shortest decimal of a double

Among the decimals that round to a given double, one with the fewest digits is chosen, and of those
the one nearest to the double.  For each number of digits only two decimals can qualify: the
neighbours of the double on the grid of decimals with that many digits.  Seventeen digits always
suffice.
-/

set_option autoImplicit false

namespace BufferLisp

namespace Number

/-- A decimal `0.d₁d₂… · 10 ^ point`, with its digits as characters. -/
structure Decimal where
  digits : List Char
  point : Int
  deriving Repr, DecidableEq

/-- In which decimal place behind the point the least positive double has its first digit. -/
def firstPlace : Nat := 324

/-- The place of the decimal point in front of which the digits of a positive double start:
the double lies between `10 ^ (point - 1)`, included, and `10 ^ point`. -/
def pointOf (rank : Nat) : Int :=
  ((Nat.toDigits 10 (units rank * Nat.pow 10 firstPlace / unitsPerOne)).length : Int) - firstPlace

/-- The two factors that turn units into multiples of `10 ^ grid`. -/
def gridScale (grid : Int) : Nat × Nat :=
  if 0 ≤ grid then (1, unitsPerOne * Nat.pow 10 grid.toNat)
  else (Nat.pow 10 (-grid).toNat, unitsPerOne)

/-- The multiple of `10 ^ grid` that stands for the rank: a neighbour of the double that rounds back
to it, the nearer one if both do, and the even one if they are equally near. -/
def onGrid? (rank : Nat) (grid : Int) : Option Nat :=
  let (factor, divisor) := gridScale grid
  let scaled := units rank * factor
  let low := scaled / divisor
  let lowReads := nearestRankDecimal low grid == rank
  let highReads := nearestRankDecimal (low + 1) grid == rank
  if lowReads && highReads then some (roundQuotient scaled divisor)
  else if lowReads then some low
  else if highReads then some (low + 1)
  else none

/-- The digits without the zeros at their end. -/
def dropEndZeros (digits : List Char) : List Char :=
  (digits.reverse.dropWhile (· == '0')).reverse

/-- The decimal of a multiple of `10 ^ grid`. -/
def Decimal.ofGrid (multiple : Nat) (grid : Int) : Decimal :=
  let digits := Nat.toDigits 10 multiple
  ⟨dropEndZeros digits, digits.length + grid⟩

/-- Every digit of a rank: a whole number of units has a finite decimal expansion. -/
def exactDecimal (rank : Nat) : Decimal :=
  Decimal.ofGrid (units rank * Nat.pow 5 unitPlaces) (-unitPlaces)

/-- The first number of digits from `n` on, among `tries` of them, that has a decimal for the
rank. -/
def shortestFrom (rank : Nat) (point : Int) : Nat → Nat → Decimal
  | 0, _ => exactDecimal rank
  | tries + 1, n =>
    match onGrid? rank (point - n) with
    | some multiple => Decimal.ofGrid multiple (point - n)
    | none => shortestFrom rank point tries (n + 1)

/-- The shortest decimal that rounds to the rank. -/
def shortest (rank : Nat) : Decimal :=
  shortestFrom rank (pointOf rank) 17 1

end Number

end BufferLisp
