import BufferLisp.Text.Line

/-!
# Buffers

A buffer is a named text with a cursor.  The cursor is an offset into the text; a buffer that was
handed in from outside may have one that lies beyond it, and is then treated as offsets are
everywhere (`Text.index`).
-/

set_option autoImplicit false

namespace BufferLisp

/-- A named text with a cursor. -/
structure Buffer where
  name : String
  content : String := ""
  cursor : Int := 0
  mode : String := "Fundamental"
  modified : Bool := false
  readOnly : Bool := false
  deriving Repr, DecidableEq

namespace Buffer

/-- An empty buffer. -/
def named (name : String) : Buffer where
  name

/-- Inserts a text at the cursor and moves the cursor behind it. -/
def insert (buffer : Buffer) (text : String) : Buffer :=
  { buffer with
    content := Text.insertAt buffer.content buffer.cursor text
    cursor := buffer.cursor + text.length
    modified := true }

/-- Moves the cursor to an offset, as far as the text goes. -/
def moveTo (buffer : Buffer) (offset : Int) : Buffer :=
  { buffer with cursor := Text.clamp buffer.content.length offset }

/-- Moves the cursor one line up. -/
def up (buffer : Buffer) : Buffer :=
  { buffer with cursor := Text.upLine buffer.content.toList buffer.cursor }

/-- Moves the cursor one line down. -/
def down (buffer : Buffer) : Buffer :=
  { buffer with cursor := Text.downLine buffer.content.toList buffer.cursor }

/-- Marks the buffer as saved. -/
def save (buffer : Buffer) : Buffer :=
  { buffer with modified := false }

/-- The text with a bar where the cursor is. -/
def shown (buffer : Buffer) : String :=
  Text.insertAt buffer.content buffer.cursor "|"

/-- The line that sums the buffer up: two flags, its name and its mode. -/
def modeLine (buffer : Buffer) : String :=
  "-" ++ (if buffer.readOnly then "%" else "-") ++ (if buffer.modified then "**" else "--") ++ "-  "
    ++ buffer.name ++ "  All  (" ++ buffer.mode ++ ")"

end Buffer

end BufferLisp
