import BufferLisp.Session
import BufferLisp.Text.Quoted
import BufferLisp.Workspace.Basic

/-!
# Editors

An editor is a session on a workspace, together with commands that act on the workspace directly.  A
command that needs the active buffer fails if there is none; a command that evaluates a program can
stop as the program does.  What was done before stays done.
-/

set_option autoImplicit false

namespace BufferLisp

/-- A session on a workspace. -/
abbrev Editor := World Workspace

/-- Why a command ends early. -/
inductive Fault where
  /-- A program stopped. -/
  | stopped (cause : Stop)
  /-- No buffer has the active name. -/
  | missingBuffer (name : String)
  /-- A position is not written in decimal digits. -/
  | badPosition (text : String)
  /-- A position has more digits than are read. -/
  | longPosition (digits : Nat)

/-- The greatest number of digits that a position may have. -/
def positionDigits : Nat := 4300

namespace Fault

/-- The wording of a fault; running out of depth has none. -/
def message? : Fault → Option String
  | stopped cause => cause.message?
  | missingBuffer name => some ("active buffer " ++ Text.quoted name ++ " is missing")
  | badPosition text =>
    some ("invalid literal for int() with base 10: " ++
      String.ofList ((Text.quoted text).toList.take 200))
  | longPosition digits =>
    some ("Exceeds the limit (" ++ positionDigits.repr ++
      " digits) for integer string conversion: value has " ++ digits.repr ++
      " digits; use sys.set_int_max_str_digits() to increase the limit")

end Fault

/-- A command: a computation on an editor that can fail and keeps the editor either way. -/
abbrev EditorM := ExceptT Fault (StateM Editor)

namespace EditorM

variable {α β : Type}

/-- Runs a command on an editor. -/
def runOn (editor : Editor) (action : EditorM α) : Except Fault α × Editor :=
  action editor

/-- An evaluation as a command. -/
def ofEval (action : EvalM Workspace α) : EditorM α :=
  ExceptT.mk fun editor =>
    let (result, after) := action.runOn editor
    (result.mapError .stopped, after)

/-- The workspace. -/
def workspace : EditorM Workspace := do
  return (← get).host

/-- Changes the workspace. -/
def modifyWorkspace (change : Workspace → Workspace) : EditorM Unit :=
  modify fun editor => { editor with host := change editor.host }

/-- Shows a text in the echo area. -/
def say (text : String) : EditorM Unit :=
  modifyWorkspace (·.say text)

/-- The active buffer; it is a fault if there is none. -/
def activeBuffer : EditorM Buffer := do
  let workspace ← workspace
  match workspace.activeBuffer? with
  | some buffer => return buffer
  | none => throw (.missingBuffer workspace.active)

/-- Changes the active buffer; it is a fault if there is none. -/
def changeBuffer (change : Buffer → Buffer) : EditorM Unit := do
  let _ ← activeBuffer
  modifyWorkspace (·.modifyActive change)

/-! ## What running does -/

@[simp] theorem runOn_pure (editor : Editor) (a : α) :
    (pure a : EditorM α).runOn editor = (.ok a, editor) := rfl

/-- What follows runs on the editor that is left, unless the command has failed. -/
theorem runOn_bind (editor : Editor) (action : EditorM α) (next : α → EditorM β) :
    (action >>= next).runOn editor =
      match action.runOn editor with
      | (.ok a, after) => (next a).runOn after
      | (.error fault, after) => (.error fault, after) := by
  change (match action editor with | (result, after) => ExceptT.bindCont next result after) = _
  unfold runOn
  rcases action editor with ⟨_ | _, after⟩ <;> rfl

@[simp] theorem runOn_throw (editor : Editor) (fault : Fault) :
    (throw fault : EditorM α).runOn editor = (.error fault, editor) := rfl

/-- An evaluation leaves the same editor as a command. -/
theorem runOn_ofEval (editor : Editor) (action : EvalM Workspace α) :
    (ofEval action).runOn editor =
      let ran := EvalM.runOn editor action
      (ran.1.mapError .stopped, ran.2) := rfl

@[simp] theorem runOn_workspace (editor : Editor) :
    workspace.runOn editor = (.ok editor.host, editor) := rfl

@[simp] theorem runOn_modifyWorkspace (editor : Editor) (change : Workspace → Workspace) :
    (modifyWorkspace change).runOn editor =
      (.ok (), { editor with host := change editor.host }) := rfl

/-- Asking for the active buffer changes nothing, and fails exactly if there is none. -/
theorem runOn_activeBuffer (editor : Editor) :
    activeBuffer.runOn editor =
      match editor.host.activeBuffer? with
      | some buffer => (.ok buffer, editor)
      | none => (.error (.missingBuffer editor.host.active), editor) := by
  rw [activeBuffer, runOn_bind, runOn_workspace]
  dsimp only
  cases editor.host.activeBuffer? <;> rfl

end EditorM

end BufferLisp
