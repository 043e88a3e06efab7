import BufferLisp.Eval.Basic

/-!
# Special forms

A list headed by the name of a special form is evaluated by that form's own rule.  The rules are
given for any way `ev` of evaluating the parts of a form, so they do not depend on how deep the
evaluation may still go.
-/

set_option autoImplicit false

namespace BufferLisp

/-- The special forms. -/
inductive SpecialForm where
  | quote
  | setq
  | ifElse
  | defun
  | progn
  | letIn
  | interactive
  deriving Repr, DecidableEq

namespace SpecialForm

/-- The name that a form is headed by. -/
def name : SpecialForm → String
  | quote => "quote"
  | setq => "setq"
  | ifElse => "if"
  | defun => "defun"
  | progn => "progn"
  | letIn => "let"
  | interactive => "interactive"

/-- All special forms. -/
def all : List SpecialForm :=
  [quote, setq, ifElse, defun, progn, letIn, interactive]

/-- The special form of a name. -/
def ofName? (name : String) : Option SpecialForm :=
  all.find? (·.name == name)

/-- The special form that an expression in head position stands for. -/
def ofHead? : Value → Option SpecialForm
  | .sym name => ofName? name
  | _ => none

variable {σ : Type}

/-- Stops because a form has the wrong shape. -/
def malformed {α : Type} (cause : Malformed) : EvalM σ α :=
  EvalM.fail (.malformed cause)

/-- Evaluates expressions from left to right for the value of the last one; `value` is the value if
there is none. -/
def sequence (ev : Value → EvalM σ Value) : Value → List Value → EvalM σ Value
  | value, [] => pure value
  | _, e :: rest => do
    let value ← ev e
    sequence ev value rest

/-- `(setq name e …)`: evaluates and binds one pair after the other, in the current frame, so the
pairs before a faulty one take effect.  The value is that of the last pair. -/
def assignPairs (ev : Value → EvalM σ Value) : Value → List Value → EvalM σ Value
  | value, [] => pure value
  | _, .sym name :: e :: rest => do
    let value ← ev e
    EvalM.assign name value
    assignPairs ev value rest
  | _, [.sym name] => malformed (.setqWithoutValue name)
  | _, target :: _ => malformed (.setqTarget target)

/-- `(if test then else)`: expressions behind these are ignored, and a missing `else` is `nil`. -/
def choose (ev : Value → EvalM σ Value) : List Value → EvalM σ Value
  | test :: yes :: rest => do
    if (← ev test).isTrue then ev yes
    else
      match rest with
      | no :: _ => ev no
      | [] => pure .nil
  | _ => malformed .ifTooShort

/-- The elements of a list that may also be written `nil`. -/
def listItems? : Value → Option (List Value)
  | .nil => some []
  | .list items => some items
  | _ => none

/-- The parameter names of a function; each has to be a symbol. -/
def parameterNames : List Value → Except LispError (List String)
  | [] => .ok []
  | .sym name :: rest => do return name :: (← parameterNames rest)
  | v :: _ => .error (.malformed (.defunParameter v))

/-- `(defun name (p …) e …)`: binds the name to a function and returns it as a symbol. -/
def define : List Value → EvalM σ Value
  | .sym name :: params :: body =>
    match listItems? params with
    | none => malformed (.defunParameters params)
    | some items => do
      let names ← EvalM.ofExcept (parameterNames items)
      EvalM.assign name (.fn names (.list (.sym "progn" :: body)))
      return .sym name
  | other :: _ :: _ => malformed (.defunName other)
  | _ => malformed .defunTooShort

/-- The name and the value of one binding of a `let`; a name without an expression is `nil`. -/
def binding (ev : Value → EvalM σ Value) : Value → EvalM σ (String × Value)
  | .sym name => pure (name, .nil)
  | .list [.sym name] => pure (name, .nil)
  | .list (.sym name :: e :: _) => do return (name, ← ev e)
  | v => malformed (.letBinding v)

/-- The bindings of a `let`, all evaluated outside the frame they make. -/
def bindings (ev : Value → EvalM σ Value) : List Value → EvalM σ (List (String × Value))
  | [] => pure []
  | v :: rest => do
    let pair ← binding ev v
    let pairs ← bindings ev rest
    return pair :: pairs

/-- `(let ((name e) …) e …)`: evaluates the body in a new frame of the bindings. -/
def bindLocally (ev : Value → EvalM σ Value) : List Value → EvalM σ Value
  | [] => malformed .letWithoutBindings
  | head :: body =>
    match listItems? head with
    | none => malformed (.letBindings head)
    | some items => do
      let pairs ← bindings ev items
      EvalM.inFrame (Frame.ofPairs pairs) (sequence ev .nil body)

/-- `(quote v)`: the expression itself. -/
def quoteFirst : List Value → EvalM σ Value
  | [] => malformed .quoteWithoutArgument
  | v :: _ => pure v

/-- Evaluates a special form from the expressions behind its name. -/
def eval (ev : Value → EvalM σ Value) (form : SpecialForm) (tail : List Value) : EvalM σ Value :=
  match form with
  | quote => quoteFirst tail
  | setq => assignPairs ev .nil tail
  | ifElse => choose ev tail
  | defun => define tail
  | progn => sequence ev .nil tail
  | letIn => bindLocally ev tail
  | interactive => pure .nil

end SpecialForm

end BufferLisp
