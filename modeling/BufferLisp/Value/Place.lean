import BufferLisp.Value.Basic

/-!
# Giving places to constants

An expression that comes from outside, and not from a source text, can have NaN constants in it.
They are numbered from left to right, so that each has a place of its own; the numbering of one
expression goes on where that of another ended.  A source text has no numeral for NaN, so what is
read from one needs no places.
-/

set_option autoImplicit false

namespace BufferLisp

namespace Value

mutual

/-- The expression with its NaN constants numbered from `next` on, and the first number that is
still free. -/
def place (next : Nat) : Value → Value × Nat
  | num x => if Number.isNaN x then (nan next, next + 1) else (num x, next)
  | nan _ => (nan next, next + 1)
  | list items =>
    let (placed, free) := placeAll next items
    (list placed, free)
  | fn params body =>
    let (placed, free) := place next body
    (fn params placed, free)
  | v => (v, next)

/-- The expressions with their NaN constants numbered from `next` on, and the first number that is
still free. -/
def placeAll (next : Nat) : List Value → List Value × Nat
  | [] => ([], next)
  | v :: rest =>
    let (first, free) := place next v
    let (others, free) := placeAll free rest
    (first :: others, free)

end

end Value

end BufferLisp
