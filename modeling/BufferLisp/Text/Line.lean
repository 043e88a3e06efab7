import BufferLisp.Text.Slice

/-!
# Lines

A text is a sequence of lines that end at a newline character; the last line has none.  These
functions find where the line around a position starts and ends, which is all that vertical motion
needs.
-/

set_option autoImplicit false

namespace BufferLisp

namespace Text

/-- Whether a character stands inside a line. -/
def isInline (c : Char) : Bool :=
  c != '\n'

/-- Where the line that holds the given index starts. -/
def lineStart (cs : List Char) (index : Nat) : Nat :=
  let left := cs.take index
  left.length - (left.reverse.takeWhile isInline).length

/-- Where the line that holds the given index ends: the index of its newline, or the length of the
text if it is the last line. -/
def lineEnd (cs : List Char) (index : Nat) : Nat :=
  index + ((cs.drop index).takeWhile isInline).length

/-- Whether a newline stands at or after the given index. -/
def hasLineAfter (cs : List Char) (index : Nat) : Bool :=
  (cs.drop index).contains '\n'

/-- The cursor one line up, in the same column or at the end of a shorter line. -/
def upLine (cs : List Char) (cursor : Int) : Int :=
  let start := lineStart cs (index cs.length cursor)
  if start = 0 then cursor
  else
    let column := cursor - start
    let upEnd := start - 1
    let upStart := lineStart cs upEnd
    upStart + min column ((upEnd - upStart : Nat) : Int)

/-- The cursor one line down, in the same column or at the end of a shorter line. -/
def downLine (cs : List Char) (cursor : Int) : Int :=
  let here := index cs.length cursor
  if hasLineAfter cs here then
    let column := cursor - lineStart cs here
    let downStart := lineEnd cs here + 1
    let downEnd := lineEnd cs downStart
    downStart + min column ((downEnd - downStart : Nat) : Int)
  else cursor

example : upLine "ab\ncdef\ng".toList 6 = 2 := by decide
example : downLine "ab\ncdef\ng".toList 6 = 9 := by decide
example : downLine "ab\ncdef\ng".toList 8 = 8 := by decide

end Text

end BufferLisp
