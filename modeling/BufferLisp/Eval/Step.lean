import BufferLisp.Eval.Form
import BufferLisp.Eval.Primitive

/-!
# Evaluation

A symbol evaluates to the value it is bound to, a list to the result of its special form or of
applying its head to its arguments, and everything else to itself.  A function is called in a new
frame inside the frames of its *caller*.

`eval limit` allows that many nested evaluations: it is `step` repeated, with the evaluations inside
it allowed one fewer.  Nothing but nested evaluations counts against the limit.  Reading a text,
printing a value and comparing two values follow the nesting of the text or of the values to its
end, however deep it is.  Where these run on the same stack as evaluation, a text or a value can be
nested too deeply for them as well.
-/

set_option autoImplicit false

namespace BufferLisp

variable {σ : Type}

/-- Evaluates expressions from left to right. -/
def evalAll (ev : Value → EvalM σ Value) : List Value → EvalM σ (List Value)
  | [] => pure []
  | e :: rest => do
    let value ← ev e
    let values ← evalAll ev rest
    return value :: values

/-- The bindings of a call: arguments that are missing are `nil`, and those left over are dropped.
-/
def bindParams : List String → List Value → List (String × Value)
  | [], _ => []
  | p :: ps, [] => (p, .nil) :: bindParams ps []
  | p :: ps, a :: as => (p, a) :: bindParams ps as

/-- Applies a value to arguments; `shown` is what the error shows if the value cannot be called. -/
def applyTo [Host σ] (ev : Value → EvalM σ Value) (shown head : Value) (args : List Value) :
    EvalM σ Value :=
  match head with
  | .prim p => p.call args
  | .fn params body => EvalM.inFrame (Frame.ofPairs (bindParams params args)) (ev body)
  | _ => EvalM.fail (.notCallable shown)

/-- One step of evaluation: `ev` evaluates the parts. -/
def step [Host σ] (ev : Value → EvalM σ Value) : Value → EvalM σ Value
  | .sym name => EvalM.lookup name
  | .list [] => pure .nil
  | .list (head :: tail) =>
    match SpecialForm.ofHead? head with
    | some form => form.eval ev tail
    | none => do
      let callee ← ev head
      let args ← evalAll ev tail
      applyTo ev head callee args
  | v => pure v

/-- Evaluates an expression with at most `limit` evaluations nested in each other. -/
def eval [Host σ] : (limit : Nat) → Value → EvalM σ Value
  | 0, _ => throw .exhausted
  | limit + 1, e => step (eval limit) e

/-- The limit of a session, far beyond what a program that ends should need. -/
def depthLimit : Nat := 4000

end BufferLisp
