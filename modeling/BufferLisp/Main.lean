import BufferLisp.Console
import BufferLisp.Settings.Path

/-!
# The program

Reads the settings from the environment and runs the console on standard input and output.  The
environment gives the text of the first buffer, the path of the file to load, and the log level,
which is taken like the others although no log is kept.
-/

set_option autoImplicit false

namespace BufferLisp

namespace Program

/-- The text of a file, or none if no file has that path.  A file that is there has to be readable,
and its text has to be in UTF-8. -/
def readText? (path : String) : IO (Option String) := do
  try
    return some (← IO.FS.readFile path)
  catch
    | .noFileOrDirectory .. => return none
    -- The path of a directory, or one that goes through a file as if that were a directory.
    | .inappropriateType .. => return none
    | cause => throw cause

/-- The settings that the environment gives.  Of all home directories only that of the user who runs
the program is known. -/
def settings : IO Settings := do
  let homes : Homes := { own := ← IO.getEnv "HOME" }
  let initText ←
    match Path.ofSetting homes (← IO.getEnv "EMLISP_INIT_FILE") with
    | .ok (some path) => readText? path.toText
    | .ok none => pure none
    | .error fault => throw (IO.userError fault.message)
  return {
    scratch := ← IO.getEnv "EMLISP_SCRATCH_MESSAGE"
    logLevel := ← IO.getEnv "EMLISP_LOG_LEVEL"
    initText }

/-- Prints the wording of a fault and gives the exit code for it. -/
def report (fault : Fault) : IO UInt32 := do
  IO.eprintln (fault.message?.getD "depth limit exhausted")
  return 1

/-- A line without the line feed at its end. -/
def withoutBreak (line : String) : String :=
  String.ofList (line.toList.takeWhile Text.isInline)

/-- Prompts for lines and answers them until the session ends. -/
partial def loop (editor : Editor) : IO UInt32 := do
  let output ← IO.getStdout
  output.putStr (Console.prompt editor)
  output.flush
  let line ← (← IO.getStdin).getLine
  if line.isEmpty then return 0
  match (Console.answer depthLimit (withoutBreak line)).runOn editor with
  | (.error fault, _) => report fault
  | (.ok effect, after) =>
    output.putStr effect.printed
    if effect.goesOn then loop after else return 0

end Program

end BufferLisp

/-- Runs a session with the settings of the environment. -/
def main : IO UInt32 := do
  match BufferLisp.Editor.ofSettings BufferLisp.depthLimit (← BufferLisp.Program.settings) with
  | (.error cause, _) => BufferLisp.Program.report (.stopped cause)
  | (.ok (), editor) => BufferLisp.Program.loop editor
