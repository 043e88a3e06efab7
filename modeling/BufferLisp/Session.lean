import BufferLisp.Eval.Step
import BufferLisp.Source.LastExpression
import BufferLisp.Source.Reading

/-!
# Sessions

A session is a world that lives on from one evaluation to the next: each source text is read,
evaluated in the global frame, and answered.  Errors of the program become the text of the answer;
running out of depth does not, nor does an offset that is too great for a number.
-/

set_option autoImplicit false

namespace BufferLisp

namespace Session

variable {σ : Type} [Host σ]

/-- The world of a new session. -/
def start (host : σ) : World σ :=
  ⟨Chain.global, host⟩

/-- What stands before the message of an error in an answer. -/
def errorMark : String := "Lisp Error: "

/-- The answer when there is no expression before the cursor. -/
def nothingFound : String := "End of file or no sexp found"

/-- Reads the first expression of a text and evaluates it. -/
def evalSource (limit : Nat) (source : String) : EvalM σ Value := do
  eval limit (← EvalM.ofExcept (read source))

/-- The text of an outcome, unless the evaluation stopped for another reason than an error. -/
def answerText : Except Stop Value → Except Stop String
  | .ok value => .ok value.print
  | .error (.error cause) => .ok (errorMark ++ cause.message)
  | .error .exhausted => .error .exhausted
  | .error .outOfRange => .error .outOfRange

/-- Evaluates a text and answers with the printed value or the error. -/
def evalToText (limit : Nat) (source : String) : EvalM σ String :=
  ExceptT.mk fun world =>
    let (result, after) := (evalSource limit source).runOn world
    (answerText result, after)

/-- Evaluates a text and echoes the answer. -/
def evalAndEcho (limit : Nat) (source : String) : EvalM σ String := do
  let text ← evalToText limit source
  EvalM.ask (.message text)
  return text

/-- Evaluates the expression before the cursor in a text and echoes the answer. -/
def evalLast (limit : Nat) (text : String) (cursor : Int) : EvalM σ String :=
  match lastExpression? text cursor with
  | none => echoNothing
  | some source => if source.isEmpty then echoNothing else evalAndEcho limit source
where
  /-- Tells that there is no expression. -/
  echoNothing : EvalM σ String := do
    EvalM.ask (.message nothingFound)
    return nothingFound

/-- Evaluates the first expression of a text, if it is not empty, before the session is used. -/
def loadPrelude (limit : Nat) (code : String) : EvalM σ Unit :=
  if code.isEmpty then pure ()
  else do
    let _ ← evalSource limit code
    return ()

end Session

end BufferLisp
