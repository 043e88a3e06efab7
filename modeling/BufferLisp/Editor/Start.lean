import BufferLisp.Editor.Basic
import BufferLisp.Settings.Basic

/-!
# Starting an editor

A new editor has a workspace and the primitives in its global frame.  Before it is used it may load
code: the first expression of a text is evaluated, and if that stops, there is no editor.
-/

set_option autoImplicit false

namespace BufferLisp

namespace Editor

/-- A session on a workspace, before anything is loaded. -/
def start (workspace : Workspace) : Editor :=
  Session.start workspace

/-- A session on a workspace that has loaded some code. -/
def load (limit : Nat) (workspace : Workspace) (code : String) : Except Stop Unit × Editor :=
  (Session.loadPrelude limit code).runOn (start workspace)

/-- A session with the given settings. -/
def ofSettings (limit : Nat) (settings : Settings) : Except Stop Unit × Editor :=
  load limit (Workspace.fresh settings.scratchText) settings.preludeText

end Editor

end BufferLisp
