import BufferLisp.Editor.CommandLine
import BufferLisp.Editor.Start
import BufferLisp.Text.Split

/-!
# The console

The console shows the name of the active buffer as its prompt and takes one line after the other.
A blank line does nothing, a line that starts with a colon is a command, and any other is
evaluated; then the echo area is printed.  The session ends at the end of the input, by the quit
command, or by a fault.

`Console.answer` is what one line does.  `Console.run` runs a whole input with it and collects the
output, so the program itself has only to read and print.
-/

set_option autoImplicit false

namespace BufferLisp

namespace Console

/-- What is printed before a line is taken. -/
def prompt (editor : Editor) : String :=
  editor.host.active ++ "> "

/-- Adds the echo area to what a line has printed. -/
def printEcho (printed : String) : EditorM CommandLine.Effect := do
  return ⟨true, printed ++ (← EditorM.workspace).echo ++ "\n"⟩

/-- What one line does and prints. -/
def answer (limit : Nat) (line : String) : EditorM CommandLine.Effect := do
  if Text.allBlank line then return ⟨true, ""⟩
  else if line.toList.head? == some ':' then
    let effect ← (CommandLine.ofText line).perform limit
    if effect.goesOn then printEcho effect.printed else return effect
  else
    let _ ← Editor.evalExpression limit line
    printEcho ""

/-- How a session went: what it printed, and the fault that ended it, if one did. -/
structure Transcript where
  output : String
  fault : Option Fault

/-- Runs lines, with the output so far in front. -/
def runLines (limit : Nat) (output : String) : Editor → List String → Transcript
  | editor, [] => ⟨output ++ prompt editor, none⟩
  | editor, line :: rest =>
    let shown := output ++ prompt editor
    match (answer limit line).runOn editor with
    | (.error fault, _) => ⟨shown, some fault⟩
    | (.ok effect, after) =>
      if effect.goesOn then runLines limit (shown ++ effect.printed) after rest
      else ⟨shown ++ effect.printed, none⟩

/-- The lines of an input: each ends at a line feed, and the last one may end at the end of the
input. -/
def lines (input : String) : List String :=
  (Text.splitEnded '\n' input.toList).map String.ofList

/-- Runs a whole input with the given settings. -/
def run (limit : Nat) (settings : Settings) (input : String) : Transcript :=
  match Editor.ofSettings limit settings with
  | (.error cause, _) => ⟨"", some (.stopped cause)⟩
  | (.ok (), editor) => runLines limit "" editor (lines input)

end Console

end BufferLisp
