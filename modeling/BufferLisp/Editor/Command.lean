import BufferLisp.Editor.Basic

/-!
# Interactive commands

The commands that a user gives by key or by name.  Each runs to its end and reports in the echo
area.
-/

set_option autoImplicit false

namespace BufferLisp

namespace Editor

open EditorM

/-- Evaluates a text and echoes the answer. -/
def evalExpression (limit : Nat) (source : String) : EditorM String :=
  ofEval (Session.evalAndEcho limit source)

/-- Evaluates the expression before the cursor and echoes the answer. -/
def evalLast (limit : Nat) : EditorM Unit := do
  let buffer ← activeBuffer
  let _ ← ofEval (Session.evalLast limit buffer.content buffer.cursor)

/-- Goes to a buffer that is there already. -/
def goTo (name : String) : EditorM Unit :=
  modifyWorkspace fun workspace =>
    { workspace with active := name }.say ("Switched to buffer " ++ name)

/-- Makes a buffer and goes to it. -/
def create (name : String) : EditorM Unit :=
  modifyWorkspace fun workspace =>
    { workspace.add name with active := name }.say "(New file)"

/-- Goes to a buffer, and makes it if there is none of that name. -/
def visit (name : String) : EditorM Unit := do
  if ((← workspace).find? name).isSome then goTo name else create name

/-- Marks the active buffer as saved. -/
def save : EditorM Unit := do
  let buffer ← activeBuffer
  changeBuffer (·.save)
  say ("Wrote " ++ buffer.name)

/-- Removes the active buffer, unless it is the only one. -/
def kill : EditorM Unit := do
  match (← workspace).removeActive with
  | none => say "Cannot kill the last buffer"
  | some rest =>
    modifyWorkspace fun _ => rest
    say "Killed buffer"

/-- Moves the cursor one line up. -/
def previousLine : EditorM Unit :=
  changeBuffer (·.up)

/-- Moves the cursor one line down. -/
def nextLine : EditorM Unit :=
  changeBuffer (·.down)

/-- Gives up whatever was being typed. -/
def quit : EditorM Unit :=
  say "Quit"

/-- The summary line of the active buffer. -/
def modeLine : EditorM String := do
  return (← activeBuffer).modeLine

/-- The commands that can be run by name. -/
inductive NamedCommand where
  | kill
  | evalLast
  | save
  | nextLine
  | previousLine
  | quit
  deriving Repr, DecidableEq

/-- The command of a name. -/
def NamedCommand.ofName? (name : String) : Option NamedCommand :=
  match name with
  | "kill-buffer" => some .kill
  | "eval-last-sexp" => some .evalLast
  | "save-buffer" => some .save
  | "next-line" => some .nextLine
  | "previous-line" => some .previousLine
  | "keyboard-quit" => some .quit
  | _ => none

/-- Runs a named command. -/
def NamedCommand.run (limit : Nat) : NamedCommand → EditorM Unit
  | .kill => Editor.kill
  | .evalLast => Editor.evalLast limit
  | .save => Editor.save
  | .nextLine => Editor.nextLine
  | .previousLine => Editor.previousLine
  | .quit => Editor.quit

/-- Runs the command of a name; blanks around the name do not count. -/
def runNamed (limit : Nat) (name : String) : EditorM Unit :=
  match NamedCommand.ofName? (Text.trim name) with
  | some command => command.run limit
  | none => say ("Command not found: " ++ name)

end Editor

end BufferLisp
