/-!
# Character classes given by ranges

A character class outside ASCII is a table of closed ranges of code points.  The tables themselves
stand in the modules named for the class they describe; this module holds the one test on them.
-/

set_option autoImplicit false

namespace BufferLisp

/-- A closed range of code points. -/
structure CharRange where
  first : Nat
  last : Nat
  deriving Repr, DecidableEq

namespace CharRange

/-- Whether the character lies in the range. -/
def contains (r : CharRange) (c : Char) : Bool :=
  decide (r.first ≤ c.toNat) && decide (c.toNat ≤ r.last)

/-- Whether some range of the table holds the character. -/
def anyContains (table : List CharRange) (c : Char) : Bool :=
  table.any (·.contains c)

end CharRange

end BufferLisp
