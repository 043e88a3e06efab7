import BufferLisp.Editor.Command
import BufferLisp.Text.Digit

/-!
# Command lines

At the prompt, a line that starts with a colon is a command: a word, and an argument behind the
first space.  `CommandLine.ofText` says which command a line is and never fails, since every line
that is no command asks for help.  The one argument that is not text is a position, and reading it
can fail.
-/

set_option autoImplicit false

namespace BufferLisp

/-- A command typed at the prompt. -/
inductive CommandLine where
  | quit
  | evalLast
  | buffers
  | visit (name : String)
  | kill
  | save
  | goto (position : String)
  | display
  | run (name : String)
  | help
  deriving Repr, DecidableEq

namespace CommandLine

/-- Whether an argument looks like a position: digits of any kind behind any number of minus
signs. -/
def isPosition (arg : String) : Bool :=
  let digits := arg.toList.dropWhile (· == '-')
  !digits.isEmpty && digits.all Text.isDigit

/-- The word of a command line and its argument: what stands before and behind the first space, the
latter without the blanks around it. -/
def split (line : String) : String × String :=
  let cs := line.toList.drop 1
  (String.ofList (cs.takeWhile (· != ' ')),
    Text.trim (String.ofList ((cs.dropWhile (· != ' ')).drop 1)))

/-- The command that a line stands for; its first character is the colon. -/
def ofText (line : String) : CommandLine :=
  let (word, arg) := split line
  match word with
  | "quit" => quit
  | "q" => quit
  | "eval-last-sexp" => evalLast
  | "buffers" => buffers
  | "switch" => if arg.isEmpty then help else visit arg
  | "find" => if arg.isEmpty then help else visit arg
  | "kill" => kill
  | "save" => save
  | "goto" => if isPosition arg then goto arg else help
  | "show" => display
  | "x" => if arg.isEmpty then help else run arg
  | _ => help

/-- The help text. -/
def helpText : String :=
  ":eval-last-sexp      evaluate the expression before point\n" ++
  ":buffers             list buffers\n" ++
  ":switch NAME         switch to (or create) a buffer\n" ++
  ":find NAME           visit a buffer\n" ++
  ":kill                kill the current buffer\n" ++
  ":save                mark the current buffer saved\n" ++
  ":goto N              move point\n" ++
  ":show                print the current buffer and its mode line\n" ++
  ":x COMMAND           run an M-x command\n" ++
  ":quit                exit"

/-- Reads a position: decimal digits of any script, with at most one minus sign. -/
def readPosition (text : String) : Except Fault Int :=
  let (negative, body) := match text.toList with
    | '-' :: rest => (true, rest)
    | cs => (false, cs)
  let digits := (body.takeWhile fun c => (Text.decimalValue? c).isSome).filterMap Text.decimalValue?
  if positionDigits < digits.length then .error (.longPosition digits.length)
  else if digits.isEmpty || digits.length != body.length then .error (.badPosition text)
  else .ok (if negative then -(Text.ofDigits digits) else Text.ofDigits digits)

open EditorM

/-- Moves the cursor to a position and shows where it has come to stand. -/
def goToPosition (text : String) : EditorM Unit := do
  let offset ← ExceptT.mk (pure (readPosition text))
  modifyWorkspace (·.modifyActive (·.moveTo offset))
  say (← activeBuffer).cursor.repr

/-- What a command line prints, and whether the session goes on after it. -/
structure Effect where
  goesOn : Bool
  printed : String
  deriving Repr, DecidableEq

/-- Runs a command that prints nothing and does not end the session. -/
def quietly (action : EditorM Unit) : EditorM Effect := do
  action
  return ⟨true, ""⟩

/-- Runs a command line. -/
def perform (limit : Nat) : CommandLine → EditorM Effect
  | quit => return ⟨false, ""⟩
  | evalLast => quietly (Editor.evalLast limit)
  | buffers => quietly do say (" ".intercalate (← workspace).names)
  | visit name => quietly (Editor.visit name)
  | kill => quietly Editor.kill
  | save => quietly Editor.save
  | goto position => quietly (goToPosition position)
  | display => do
    let buffer ← activeBuffer
    say buffer.modeLine
    return ⟨true, buffer.shown ++ "\n"⟩
  | run name => quietly (Editor.runNamed limit name)
  | help => quietly (say helpText)

end CommandLine

end BufferLisp
