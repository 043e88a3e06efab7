import BufferLisp.Text.CharRange

/-!
# Blank characters

Blanks separate the words of a source text and are cut off both ends of a command's argument.
The class is the Unicode one: the ASCII controls from tab to carriage return, the four
information separators, the space, and the space and line separators beyond ASCII.  A zero-width
space or a byte order mark is not blank.
-/

set_option autoImplicit false

namespace BufferLisp

namespace Text

/-- The ranges of the blank characters. -/
def blankRanges : List CharRange :=
  [⟨0x09, 0x0D⟩, ⟨0x1C, 0x20⟩, ⟨0x85, 0x85⟩, ⟨0xA0, 0xA0⟩, ⟨0x1680, 0x1680⟩, ⟨0x2000, 0x200A⟩,
   ⟨0x2028, 0x2029⟩, ⟨0x202F, 0x202F⟩, ⟨0x205F, 0x205F⟩, ⟨0x3000, 0x3000⟩]

/-- Whether a character is blank. -/
def isBlank (c : Char) : Bool :=
  CharRange.anyContains blankRanges c

/-- The characters without the blanks at their start. -/
def dropBlanks (cs : List Char) : List Char :=
  cs.dropWhile isBlank

/-- The text without the blanks at either end. -/
def trim (s : String) : String :=
  String.ofList (dropBlanks (dropBlanks s.toList).reverse).reverse

/-- Whether a text holds nothing but blanks. -/
def allBlank (s : String) : Bool :=
  s.toList.all isBlank

example : trim "\t a b\u00a0\n" = "a b" := by decide
example : isBlank '\u200b' = false := by decide

end Text

end BufferLisp
