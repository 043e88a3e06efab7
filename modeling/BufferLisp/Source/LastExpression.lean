import BufferLisp.Source.Token

/-!
# The expression before a cursor

Finds the text of the expression that ends just before a cursor, blanks apart, by looking backward
from there and without reading the text before it.  After a closing parenthesis it is the shortest
balanced part, where parentheses inside strings count too; after a quote it reaches back to the
nearest quote that no backslash precedes; otherwise it is an atom.

The search runs over the characters before the cursor in reverse order.
-/

set_option autoImplicit false

namespace BufferLisp

namespace LastExpression

/-- The characters, going backward, up to the parenthesis that opens the list; `inner` lists
inside it are closed and not opened yet. -/
def backToOpening : (inner : Nat) → List Char → Option (List Char)
  | _, [] => none
  | inner, ')' :: rest => (backToOpening (inner + 1) rest).map (')' :: ·)
  | 0, '(' :: _ => some ['(']
  | inner + 1, '(' :: rest => (backToOpening inner rest).map ('(' :: ·)
  | inner, c :: rest => (backToOpening inner rest).map (c :: ·)

/-- The characters, going backward, up to a quote with no backslash before it. -/
def backToQuote : List Char → Option (List Char)
  | [] => none
  | c :: rest =>
    if c = '"' && rest.head? != some '\\' then some [c]
    else (backToQuote rest).map (c :: ·)

/-- The expression that the reversed characters start with, in reverse. -/
def backward : List Char → Option (List Char)
  | [] => none
  | ')' :: rest => (backToOpening 0 rest).map (')' :: ·)
  | '"' :: rest => (backToQuote rest).map ('"' :: ·)
  | cs => some (Token.atomPart cs)

end LastExpression

/-- The text of the expression that ends before the cursor. A cursor past the end counts as the
end; before a cursor at the start or in front of it there is none. -/
def lastExpression? (text : String) (cursor : Int) : Option String :=
  let reversed := (text.toList.take cursor.toNat).reverse
  (LastExpression.backward (Text.dropBlanks reversed)).map fun found => String.ofList found.reverse

example : lastExpression? "(a (b) \"c\") " 12 = some "(a (b) \"c\")" := by decide
example : lastExpression? "a)" 2 = none := by decide
example : lastExpression? "a(" 2 = some "" := by decide

end BufferLisp
