import BufferLisp.Number.Format
import BufferLisp.Value.Basic

/-!
# Printing values

The printed text of a value is what the echo area shows.  Strings stand between quotes with their
contents as they are, so a string that holds a quote does not read back.  False prints as `nil`;
functions and primitives print as fixed words.
-/

set_option autoImplicit false

namespace BufferLisp

namespace Value

mutual

/-- The characters of a value's printed text. -/
def chars : Value → List Char
  | nil => "nil".toList
  | bool b => if b then ['t'] else "nil".toList
  | num x => Number.chars x
  | nan _ => Number.nanText
  | str s => '"' :: s.toList ++ ['"']
  | sym name => name.toList
  | list items => '(' :: charsSpaced items ++ [')']
  | fn _ _ => "<function>".toList
  | prim _ => "<subr>".toList

/-- The printed texts of values, with a space between neighbours. -/
def charsSpaced : List Value → List Char
  | [] => []
  | v :: rest => chars v ++ charsAfter rest

/-- The printed texts of values, each with a space in front. -/
def charsAfter : List Value → List Char
  | [] => []
  | v :: rest => ' ' :: chars v ++ charsAfter rest

end

/-- The printed text of a value. -/
def print (v : Value) : String :=
  String.ofList v.chars

/-- The text that a value puts into a buffer or a message: strings as they are, all else printed. -/
def text : Value → String
  | str s => s
  | v => v.print

example : print (list [sym "a", str "b c", list [], bool false]) = "(a \"b c\" () nil)" := by
  decide +kernel

end Value

end BufferLisp
