import BufferLisp.Text.Blank

/-!
# Tokens of a source text

A source text is cut into parentheses, quote marks, string literals and atoms; blanks only separate
them.  A string literal runs to the next quote that no backslash skips, or to the end of the text.
An atom is a maximal run of characters that are neither blank nor parentheses, so a quote or a quote
mark inside it belongs to it.

Each token is found from the character it starts with, together with its width, and the width tells
how many characters to pass over before the next one.  A literal that the end of the text cuts off
is one wider than the text, as if its quote stood behind the end, and two wider if a backslash there
still skips a character.
-/

set_option autoImplicit false

namespace BufferLisp

/-- A token; literals and atoms carry their characters. -/
inductive Token where
  | openList
  | closeList
  | quoteMark
  | literal (raw : List Char)
  | atom (name : List Char)
  deriving Repr, DecidableEq

/-- A token with the positions where it starts and stops. -/
structure Lexeme where
  token : Token
  start : Nat
  stop : Nat
  deriving Repr, DecidableEq

namespace Token

/-- Whether a character ends an atom. -/
def isDelimiter (c : Char) : Bool :=
  Text.isBlank c || c == '(' || c == ')'

/-- The leading characters that belong to one atom. -/
def atomPart (cs : List Char) : List Char :=
  cs.takeWhile (!isDelimiter ·)

/-- How many characters stand between the opening quote of a literal and its closing one.  A
backslash takes the next character with it, even past the end of the text. -/
def literalWidth : List Char → Nat
  | [] => 0
  | ['\\'] => 2
  | '\\' :: _ :: rest => literalWidth rest + 2
  | '"' :: _ => 0
  | _ :: rest => literalWidth rest + 1

/-- The token that starts with the given character, which is not blank, and its width. -/
def starting (c : Char) (rest : List Char) : Token × Nat :=
  if c = '(' then (openList, 1)
  else if c = ')' then (closeList, 1)
  else if c = '\'' then (quoteMark, 1)
  else if c = '"' then
    let width := literalWidth rest
    (literal (rest.take width), width + 2)
  else
    let name := atomPart (c :: rest)
    (atom name, name.length)

end Token

/-- The lexemes of the characters that follow the first `skip` ones; the characters start at
position `pos` of the text. -/
def lexemes : (skip pos : Nat) → List Char → List Lexeme
  | _, _, [] => []
  | skip + 1, pos, _ :: rest => lexemes skip (pos + 1) rest
  | 0, pos, c :: rest =>
    if Text.isBlank c then lexemes 0 (pos + 1) rest
    else
      let (token, width) := Token.starting c rest
      ⟨token, pos, pos + width⟩ :: lexemes (width - 1) (pos + 1) rest

example : (lexemes 0 0 "(a 'b)".toList).map (·.token) =
    [.openList, .atom ['a'], .quoteMark, .atom ['b'], .closeList] := by decide
example : (lexemes 0 0 "\"a\\".toList).map (·.stop) = [5] := by decide

end BufferLisp
