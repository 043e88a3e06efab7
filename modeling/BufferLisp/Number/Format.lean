import BufferLisp.Number.Shortest

/-!
# The text of a number

A whole number below 10²¹ in magnitude is written out in full, and zero has no sign.  Any other
finite number is written with its shortest digits: positionally from 10⁻⁴ on, else as one digit, a
point and the others, with a signed exponent that has no leading zeros.  Infinities and NaN are
words.
-/

set_option autoImplicit false

namespace BufferLisp

namespace Number

/-- Whole numbers from this magnitude on are written with an exponent. -/
def wholeLimit : Nat := Nat.pow 10 21

/-- A decimal is written positionally when its point lies after this place. -/
def leastPoint : Int := -4

/-- A decimal is written positionally when its point lies at this place or before it. -/
def greatestPoint : Int := 21

/-- The whole number that a rank stands for, if it is one below the limit. -/
def whole? (rank : Nat) : Option Nat :=
  let u := units rank
  if u % unitsPerOne = 0 && u / unitsPerOne < wholeLimit then some (u / unitsPerOne) else none

/-- Digits with a decimal point, at least one digit on each side of it. -/
def positional (d : Decimal) : List Char :=
  if d.point ≤ 0 then
    ['0', '.'] ++ List.replicate (-d.point).toNat '0' ++ d.digits
  else
    let front := d.point.toNat
    if front < d.digits.length then d.digits.take front ++ '.' :: d.digits.drop front
    else d.digits ++ List.replicate (front - d.digits.length) '0' ++ ['.', '0']

/-- The sign and the digits of an exponent. -/
def exponentText (e : Int) : List Char :=
  (if e < 0 then '-' else '+') :: Nat.toDigits 10 e.natAbs

/-- One digit, a point and the other digits if there are any, and the exponent. -/
def scientific (d : Decimal) : List Char :=
  let mantissa := match d.digits with
    | [] => ['0']
    | [digit] => [digit]
    | digit :: rest => digit :: '.' :: rest
  mantissa ++ 'e' :: exponentText (d.point - 1)

/-- A decimal in the notation that its magnitude asks for. -/
def decimalText (d : Decimal) : List Char :=
  if leastPoint < d.point && d.point ≤ greatestPoint then positional d else scientific d

/-- The text of the magnitude of a finite double. -/
def rankText (rank : Nat) : List Char :=
  (whole? rank).elim (decimalText (shortest rank)) (Nat.toDigits 10)

/-- The text of NaN. -/
def nanText : List Char := "NaN".toList

/-- The characters of a number's text. -/
def chars (x : Float) : List Char :=
  let r := rank x
  if isNaN x then nanText
  else
    let text := if r = infinityRank then "Infinity".toList else rankText r
    if isNegative x && r != 0 then '-' :: text else text

/-- The text of a number. -/
def format (x : Float) : String :=
  String.ofList (chars x)

example : format 12.0 = "12" := by decide +kernel
example : format (-0.0) = "0" := by decide +kernel
example : format 0.1 = "0.1" := by decide +kernel

end Number

end BufferLisp
