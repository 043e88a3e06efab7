import BufferLisp.Number.Numeral
import BufferLisp.Source.Token
import BufferLisp.Value.Basic

/-!
# The values of literals and atoms

Between its quotes a string literal stands for itself, but for two escapes: first every
backslash-quote becomes a quote, then every backslash-`n` of the result a line break.  The second
pass does not know what the first one saw, so a backslash that was itself escaped still makes a line
break with an `n` behind it.

The atoms `t` and `nil` are the true and the empty value, a numeral is its number, and any other
atom is a symbol.
-/

set_option autoImplicit false

namespace BufferLisp

/-- The characters with each pair `first second` replaced by `result`, found from left to right. -/
def replacePair (first second result : Char) : List Char → List Char
  | c :: d :: rest =>
    if c = first && d = second then result :: replacePair first second result rest
    else c :: replacePair first second result (d :: rest)
  | short => short

namespace Token

/-- The text that the characters between the quotes of a literal stand for. -/
def literalText (raw : List Char) : String :=
  String.ofList (replacePair '\\' 'n' '\n' (replacePair '\\' '"' '"' raw))

/-- The value of an atom. -/
def atomValue (name : List Char) : Value :=
  if name = ['t'] then .bool true
  else if name = ['n', 'i', 'l'] then .nil
  else
    match Number.ofChars? name with
    | some x => .num x
    | none => .sym (String.ofList name)

end Token

end BufferLisp
