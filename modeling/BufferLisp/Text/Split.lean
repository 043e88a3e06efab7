/-!
# Splitting at a separator

A text is a row of pieces with a separator between neighbours: there is one piece more than there
are separators, and pieces may be empty.
-/

set_option autoImplicit false

namespace BufferLisp

namespace Text

/-- Puts a character in front of the first piece. -/
def pushFront (c : Char) : List (List Char) → List (List Char)
  | [] => [[c]]
  | piece :: others => (c :: piece) :: others

/-- The pieces between separators. -/
def splitAt (separator : Char) : List Char → List (List Char)
  | [] => [[]]
  | c :: rest =>
    if c = separator then [] :: splitAt separator rest
    else pushFront c (splitAt separator rest)

/-- The pieces without a last one that is empty, as for lines that each end in the separator. -/
def splitEnded (separator : Char) (cs : List Char) : List (List Char) :=
  let pieces := splitAt separator cs
  if pieces.getLast? = some [] then pieces.dropLast else pieces

example : splitAt '/' "a//b".toList = [['a'], [], ['b']] := by decide
example : splitEnded '\n' "a\n\nb".toList = [['a'], [], ['b']] := by decide
example : splitEnded '\n' "a\n\n".toList = [['a'], []] := by decide
example : splitEnded '\n' [] = [] := by decide

end Text

end BufferLisp
