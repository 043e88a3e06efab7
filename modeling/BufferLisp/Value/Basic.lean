import BufferLisp.Number.Binary

/-!
# Values

Source text is read into values, evaluation turns values into values, and a program is itself a
value.  A user function keeps its parameter names and its body and no scope: what its free names
mean is decided where it is called.

A NaN is equal to no number.  In code it is a constant like any other, and code is the same as
itself; so a NaN that was written into an expression carries the place where it was written.
-/

set_option autoImplicit false

namespace BufferLisp

/-- The operations that every session starts with. -/
inductive Primitive where
  | add
  | sub
  | mul
  | div
  | equal
  | less
  | greater
  | list
  | cons
  | car
  | cdr
  | message
  | insert
  | bufferName
  | currentBuffer
  | switchToBuffer
  | killBuffer
  | point
  | pointMin
  | pointMax
  | gotoChar
  deriving Repr, DecidableEq

namespace Primitive

/-- The name that a primitive is bound to at the start, and that its errors show. -/
def name : Primitive → String
  | add => "+"
  | sub => "-"
  | mul => "*"
  | div => "/"
  | equal => "="
  | less => "<"
  | greater => ">"
  | list => "list"
  | cons => "cons"
  | car => "car"
  | cdr => "cdr"
  | message => "message"
  | insert => "insert"
  | bufferName => "buffer-name"
  | currentBuffer => "current-buffer"
  | switchToBuffer => "switch-to-buffer"
  | killBuffer => "kill-buffer"
  | point => "point"
  | pointMin => "point-min"
  | pointMax => "point-max"
  | gotoChar => "goto-char"

/-- All primitives, in the order in which they are bound. -/
def all : List Primitive :=
  [add, sub, mul, div, equal, less, greater, list, cons, car, cdr, message, insert, bufferName,
   currentBuffer, switchToBuffer, killBuffer, point, pointMin, pointMax, gotoChar]

/-- The primitive of a name. -/
def ofName? (name : String) : Option Primitive :=
  all.find? (·.name == name)

/-- The primitive that stands for all those that do the same: `current-buffer` is another name of
`buffer-name`. -/
def operation : Primitive → Primitive
  | currentBuffer => bufferName
  | p => p

end Primitive

/-- A value, and equally an expression. -/
inductive Value where
  | nil
  | bool (b : Bool)
  | num (x : Float)
  /-- A NaN that stands in an expression as a constant, told apart from others by its place. -/
  | nan (place : Nat)
  | str (s : String)
  | sym (name : String)
  | list (items : List Value)
  | fn (params : List String) (body : Value)
  | prim (p : Primitive)
  deriving Inhabited

namespace Value

/-- What an expression means when it is abbreviated with a quote mark. -/
def quoted (v : Value) : Value :=
  list [sym "quote", v]

/-- Whether a condition holds: everything but `nil` and false is true. -/
def isTrue : Value → Bool
  | nil => false
  | bool b => b
  | _ => true

/-- The elements of a list; any other value has none. -/
def items : Value → List Value
  | list vs => vs
  | _ => []

/-! ## Equality

Two values are equal when they are of one kind and their contents are equal.  Numbers are compared
as doubles, so both zeros are equal and NaN is equal to nothing, primitives by what they do, and
functions by their parameter names and the code of their bodies.  Code is compared in the same way,
but for the constant NaN: it is the same as itself, and as no other one. -/

mutual

/-- Whether two expressions are the same code. -/
def sameCode : Value → Value → Bool
  | nil, nil => true
  | bool a, bool b => a == b
  | num a, num b => Number.equal a b
  | nan p, nan q => p == q
  | str a, str b => a == b
  | sym a, sym b => a == b
  | list as, list bs => sameCodeAll as bs
  | fn ps a, fn qs b => ps == qs && sameCode a b
  | prim p, prim q => p.operation == q.operation
  | _, _ => false

/-- Whether two lists of expressions are the same code, one by one. -/
def sameCodeAll : List Value → List Value → Bool
  | [], [] => true
  | a :: as, b :: bs => sameCode a b && sameCodeAll as bs
  | _, _ => false

end

mutual

/-- Whether two values are equal. -/
def equal : Value → Value → Bool
  | nil, nil => true
  | bool a, bool b => a == b
  | num a, num b => Number.equal a b
  | str a, str b => a == b
  | sym a, sym b => a == b
  | list as, list bs => equalAll as bs
  | fn ps a, fn qs b => ps == qs && sameCode a b
  | prim p, prim q => p.operation == q.operation
  | _, _ => false

/-- Whether two lists of values are equal element by element. -/
def equalAll : List Value → List Value → Bool
  | [], [] => true
  | a :: as, b :: bs => equal a b && equalAll as bs
  | _, _ => false

end

end Value

end BufferLisp
