import BufferLisp.Text.Printable

/-!
# Quoted names

An error that names a buffer or an argument shows it between quotes.  The quote is single, unless
the name holds a single quote and no double one.  The backslash, the chosen quote, the line breaks
and the tab are written with a backslash; any other unprintable character is written by its code
point, in two, four or eight hexadecimal digits.
-/

set_option autoImplicit false

namespace BufferLisp

namespace Text

/-- The number in hexadecimal, with zeros in front up to the width. -/
def hexadecimal (width n : Nat) : List Char :=
  let digits := Nat.toDigits 16 n
  List.replicate (width - digits.length) '0' ++ digits

/-- A backslash, a letter and the code point in the width that the letter announces. -/
def codePointEscape (c : Char) : List Char :=
  let n := c.toNat
  if n < 0x100 then '\\' :: 'x' :: hexadecimal 2 n
  else if n < 0x10000 then '\\' :: 'u' :: hexadecimal 4 n
  else '\\' :: 'U' :: hexadecimal 8 n

/-- One character of a quoted name. -/
def quotedChar (mark c : Char) : List Char :=
  if c = '\\' || c = mark then ['\\', c]
  else if c = '\n' then ['\\', 'n']
  else if c = '\r' then ['\\', 'r']
  else if c = '\t' then ['\\', 't']
  else if isPrintable c then [c]
  else codePointEscape c

/-- The quote for a name: double if the name holds a single quote and no double one. -/
def quoteMark (cs : List Char) : Char :=
  if cs.contains '\'' && !cs.contains '"' then '"' else '\''

/-- The name between quotes. -/
def quoted (s : String) : String :=
  let mark := quoteMark s.toList
  String.ofList (mark :: s.toList.flatMap (quotedChar mark) ++ [mark])

example : quoted "ghost" = "'ghost'" := by decide +kernel
example : quoted "it's" = "\"it's\"" := by decide +kernel
example : quoted "a\nb" = "'a\\nb'" := by decide +kernel

end Text

end BufferLisp
