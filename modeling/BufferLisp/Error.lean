import BufferLisp.Value.Printer

/-!
# Errors of a program

What can go wrong when a source text is read and evaluated, by cause.  The wording of each cause
stands in one place, `LispError.message`; everything else in the library distinguishes errors by
their constructors.
-/

set_option autoImplicit false

namespace BufferLisp

/-- What is wrong with the shape of a special form. -/
inductive Malformed where
  | quoteWithoutArgument
  | ifTooShort
  | defunTooShort
  | defunName (got : Value)
  | defunParameters (got : Value)
  | defunParameter (got : Value)
  | letWithoutBindings
  | letBindings (got : Value)
  | letBinding (got : Value)
  | setqTarget (got : Value)
  | setqWithoutValue (name : String)

namespace Malformed

/-- The wording of a shape error. -/
def message : Malformed → String
  | quoteWithoutArgument => "quote requires an argument"
  | ifTooShort => "if requires a condition and a then-expression"
  | defunTooShort => "defun requires a name and a parameter list"
  | defunName got => "defun name must be a symbol, got " ++ got.print
  | defunParameters got => "defun parameter list must be a list, got " ++ got.print
  | defunParameter got => "defun parameter must be a symbol, got " ++ got.print
  | letWithoutBindings => "let requires a binding list"
  | letBindings got => "let bindings must be a list, got " ++ got.print
  | letBinding got => "let: malformed binding " ++ got.print
  | setqTarget got => "setq expects symbols, got " ++ got.print
  | setqWithoutValue name => "setq: no value for " ++ name

end Malformed

/-- What a primitive wanted where it got something else. -/
inductive Wanted where
  | number
  | finiteNumber
  | bufferName
  deriving Repr, DecidableEq

/-- The errors that end an evaluation. -/
inductive LispError where
  /-- The text ends inside a list. -/
  | unclosedList
  /-- No frame in scope binds the name. -/
  | unbound (name : String)
  /-- A special form has the wrong shape. -/
  | malformed (cause : Malformed)
  /-- The head of an application is neither a function nor a primitive. -/
  | notCallable (head : Value)
  /-- A primitive got an argument of the wrong kind. -/
  | wrongType (primitive : Primitive) (wanted : Wanted) (got : Value)
  /-- A primitive got fewer arguments than it needs. -/
  | tooFewArguments (primitive : Primitive) (needed got : Nat)

namespace LispError

/-- The wording of an error. -/
def message : LispError → String
  | unclosedList => "Unclosed list"
  | unbound name => "Void variable: " ++ name
  | malformed cause => cause.message
  | notCallable head => "Invalid function call: " ++ head.print
  | wrongType p .number got =>
    "Wrong type argument to " ++ p.name ++ ": number expected, got " ++ got.print
  | wrongType p .bufferName got =>
    "Wrong type argument to " ++ p.name ++ ": buffer name expected, got " ++ got.print
  | wrongType p .finiteNumber got => "Wrong type argument to " ++ p.name ++ ": " ++ got.print
  | tooFewArguments p needed got =>
    p.name ++ " requires at least " ++ needed.repr ++ " argument(s), got " ++ got.repr

end LispError

end BufferLisp
