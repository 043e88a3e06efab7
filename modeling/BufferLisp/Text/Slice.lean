/-!
# Cutting a text at an offset

Offsets count characters and may be any integer.  An offset past the end stands for the end, a
negative one counts back from the end and stops at the start.  So every offset has an index between
zero and the length, and cuts the text into two parts that make it up.
-/

set_option autoImplicit false

namespace BufferLisp

namespace Text

/-- The index that an offset stands for in a sequence of the given length. -/
def index (length : Nat) (offset : Int) : Nat :=
  if offset < 0 then (length + offset).toNat else min offset.toNat length

/-- The nearest offset that lies within a sequence of the given length. -/
def clamp (length : Nat) (offset : Int) : Int :=
  max 0 (min offset length)

/-- The characters before an offset. -/
def before (cs : List Char) (offset : Int) : List Char :=
  cs.take (index cs.length offset)

/-- The characters from an offset on. -/
def after (cs : List Char) (offset : Int) : List Char :=
  cs.drop (index cs.length offset)

/-- The text with `inserted` put in at an offset. -/
def insertAt (s : String) (offset : Int) (inserted : String) : String :=
  String.ofList (before s.toList offset ++ inserted.toList ++ after s.toList offset)

/-- An offset within the text is its own index. -/
theorem index_ofNat {length n : Nat} (h : n ≤ length) : index length (n : Int) = n := by
  unfold index
  rw [if_neg (by omega)]
  simp [h]

/-- The two parts make up the text. -/
theorem before_append_after (cs : List Char) (offset : Int) :
    before cs offset ++ after cs offset = cs :=
  List.take_append_drop _ cs

end Text

end BufferLisp
