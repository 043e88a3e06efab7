import BufferLisp.Eval.Basic
import BufferLisp.Number.Nearest

/-!
# What the primitives do

A primitive checks its arguments and then either has its value or needs one reply from the host to
make it.  That decision, the primitive's *plan*, is a function of the arguments alone.  So a
primitive that rejects its arguments has sent no request, and one that accepts them sends at most
one.
-/

set_option autoImplicit false

namespace BufferLisp

/-- What remains to be done once the arguments have been accepted. -/
inductive Plan where
  /-- The value is known. -/
  | done (value : Value)
  /-- The value is made from the host's reply, unless that is an offset too great for a number. -/
  | ask (request : Request) (answer : request.Reply → Option Value)

namespace Primitive

/-- The number that an argument has to be. -/
def number (p : Primitive) : Value → Except LispError Float
  | .num x => .ok x
  | .nan _ => .ok Number.nan
  | v => .error (.wrongType p .number v)

/-- The numbers that all arguments have to be; the first that is none makes the error. -/
def numbers (p : Primitive) : List Value → Except LispError (List Float)
  | [] => .ok []
  | v :: rest => do
    let x ← p.number v
    let xs ← p.numbers rest
    return x :: xs

/-- The sum of numbers, added from left to right. -/
def sum (xs : List Float) : Float :=
  xs.foldl (· + ·) 0.0

/-- The product of numbers, multiplied from left to right. -/
def product (xs : List Float) : Float :=
  xs.foldl (· * ·) 1.0

/-- The first argument of a primitive that needs one. -/
def first (p : Primitive) : List Value → Except LispError Value
  | a :: _ => .ok a
  | [] => .error (.tooFewArguments p 1 0)

/-- The first two arguments of a primitive that needs two. -/
def firstTwo (p : Primitive) : List Value → Except LispError (Value × Value)
  | a :: b :: _ => .ok (a, b)
  | args => .error (.tooFewArguments p 2 args.length)

/-- The first two arguments as numbers. -/
def twoNumbers (p : Primitive) (args : List Value) : Except LispError (Float × Float) := do
  let (a, b) ← p.firstTwo args
  let x ← p.number a
  let y ← p.number b
  return (x, y)

/-- The buffer that an argument names: a string or a symbol. -/
def namedBuffer (p : Primitive) : Value → Except LispError String
  | .str s => .ok s
  | .sym name => .ok name
  | v => .error (.wrongType p .bufferName v)

/-- The offset that an argument of `goto-char` stands for, rounded toward zero. -/
def offset (p : Primitive) (v : Value) : Except LispError Int := do
  let x ← p.number v
  if Number.isFinite x then return Number.truncate x
  else .error (.wrongType p .finiteNumber v)

/-- An offset of the host as a value. -/
def position (offset : Int) : Option Value :=
  (Number.ofInt? offset).map .num

/-- Checks the arguments of a primitive and tells what remains to be done. -/
def plan (p : Primitive) (args : List Value) : Except LispError Plan :=
  match p with
  | add => do return .done (.num (sum (← p.numbers args)))
  | sub => do
    let a ← p.first args
    let x ← p.number a
    let xs ← p.numbers args.tail
    return .done (.num (x - sum xs))
  | mul => do return .done (.num (product (← p.numbers args)))
  | div => do
    let (x, y) ← p.twoNumbers args
    return .done (.num (x / y))
  | equal => do
    let (a, b) ← p.firstTwo args
    return .done (.bool (a.equal b))
  | less => do
    let (x, y) ← p.twoNumbers args
    return .done (.bool (decide (x < y)))
  | greater => do
    let (x, y) ← p.twoNumbers args
    return .done (.bool (decide (x > y)))
  | list => .ok (.done (.list args))
  | cons => do
    let a ← p.first args
    return .done (.list (a :: (args.tail.headD .nil).items))
  | car => do
    let a ← p.first args
    return .done (a.items.headD .nil)
  | cdr => do
    let a ← p.first args
    match a.items with
    | [] => return .done .nil
    | _ :: rest => return .done (.list rest)
  | message =>
    let text := " ".intercalate (args.map Value.text)
    .ok (.ask (.message text) fun _ => some (.str text))
  | insert => .ok (.ask (.insert (String.join (args.map Value.text))) fun _ => some .nil)
  | bufferName => .ok (.ask .bufferName fun name => some (.str name))
  | currentBuffer => .ok (.ask .bufferName fun name => some (.str name))
  | switchToBuffer => do
    let name ← p.namedBuffer (← p.first args)
    return .ask (.switchBuffer name) fun _ => some (.str name)
  | killBuffer => do
    let name ← p.namedBuffer (← p.first args)
    return .ask (.killBuffer name) fun _ => some .nil
  | point => .ok (.ask .cursor position)
  | pointMin => .ok (.done (.num 0.0))
  | pointMax => .ok (.ask .content fun content => position content.length)
  | gotoChar => do
    let a ← p.first args
    let target ← p.offset a
    return .ask (.setCursor target) fun _ => some a

end Primitive

/-- Carries a plan out. -/
def Plan.run {σ : Type} [Host σ] : Plan → EvalM σ Value
  | .done value => pure value
  | .ask request answer => do
    match answer (← EvalM.ask request) with
    | some value => return value
    | none => throw .outOfRange

/-- A plan sends its request, if it has one, and makes its value of the reply. -/
theorem Plan.runOn_ask {σ : Type} [Host σ] {request : Request}
    (answer : request.Reply → Option Value) (world : World σ) :
    (Plan.run (.ask request answer)).runOn world =
      (match answer (Host.handle request world.host).1 with
        | some value => .ok value
        | none => .error .outOfRange,
       { world with host := (Host.handle request world.host).2 }) := by
  rw [run, EvalM.runOn_bind, EvalM.runOn_ask]
  dsimp only
  cases answer (Host.handle request world.host).1 <;> rfl

/-- Calls a primitive on arguments. -/
def Primitive.call {σ : Type} [Host σ] (p : Primitive) (args : List Value) : EvalM σ Value := do
  let plan ← EvalM.ofExcept (p.plan args)
  plan.run

/-- A rejected call leaves the world as it is; an accepted one carries its plan out. -/
theorem Primitive.runOn_call {σ : Type} [Host σ] (p : Primitive) (args : List Value)
    (world : World σ) :
    (p.call args).runOn world =
      match p.plan args with
      | .ok plan => plan.run.runOn world
      | .error cause => (.error (.error cause), world) := by
  rw [call, EvalM.runOn_bind, EvalM.runOn_ofExcept]
  cases p.plan args <;> rfl

end BufferLisp
