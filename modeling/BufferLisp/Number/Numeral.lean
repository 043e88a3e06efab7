import BufferLisp.Number.Nearest

/-!
# Numerals

A numeral is an optional minus sign, one or more ASCII digits, and optionally a point with one or
more digits after it.  It has no exponent.  Its number is the double nearest to it, however many
digits it has.
-/

set_option autoImplicit false

namespace BufferLisp

namespace Number

/-- The value of a digit character. -/
def digitValue (c : Char) : Nat :=
  c.toNat - '0'.toNat

/-- The whole number that digit characters stand for. -/
def ofDigitChars (digits : List Char) : Nat :=
  digits.foldl (fun n c => 10 * n + digitValue c) 0

/-- A numeral taken apart: its sign, the digits before the point, and those after it. -/
structure Numeral where
  negative : Bool
  whole : List Char
  fraction : List Char
  deriving Repr, DecidableEq

namespace Numeral

/-- The digits that follow a sign, or none if the characters are no unsigned numeral. -/
def unsigned? (negative : Bool) (cs : List Char) : Option Numeral :=
  let whole := cs.takeWhile Char.isDigit
  if whole.isEmpty then none
  else
    match cs.dropWhile Char.isDigit with
    | [] => some ⟨negative, whole, []⟩
    | '.' :: fraction =>
      if !fraction.isEmpty && fraction.all Char.isDigit then some ⟨negative, whole, fraction⟩
      else none
    | _ => none

/-- The numeral that the characters are, all of them taken together. -/
def ofChars? : List Char → Option Numeral
  | '-' :: cs => unsigned? true cs
  | cs => unsigned? false cs

/-- The number of a numeral. -/
def toFloat (n : Numeral) : Float :=
  ofRank n.negative (nearestRankDecimal (ofDigitChars (n.whole ++ n.fraction)) (-n.fraction.length))

end Numeral

/-- The number that a text is a numeral of. -/
def ofChars? (cs : List Char) : Option Float :=
  (Numeral.ofChars? cs).map Numeral.toFloat

end Number

end BufferLisp
