import BufferLisp.Host.Request
import BufferLisp.Workspace.Buffer

/-!
# Workspaces

A workspace holds buffers in the order in which they were made, the name of the active one, and the
text of the echo area.  It is the host that programs run on in an editor.

A workspace handed in from outside may break every rule of a well-kept one: two buffers may share
a name, and then the first of them is meant, or no buffer may have the active name.  Requests that
need the active buffer then change nothing and get empty replies.
-/

set_option autoImplicit false

namespace BufferLisp

/-- Named buffers, the active one's name, and the echo area. -/
structure Workspace where
  buffers : List Buffer
  active : String
  echo : String
  deriving Repr, DecidableEq

namespace Workspace

/-- The name of the buffer that a new workspace starts in. -/
def scratchName : String := "*scratch*"

/-- The name of the log buffer. -/
def messagesName : String := "*Messages*"

/-- The workspace of a new session, with the given text in its first buffer. -/
def fresh (scratchText : String) : Workspace where
  buffers :=
    [{ name := scratchName, content := scratchText, mode := "Lisp Interaction" },
     { name := messagesName, content := "Initialization complete.\n", readOnly := true }]
  active := scratchName
  echo := ""

/-- The first buffer of a name. -/
def find? (workspace : Workspace) (name : String) : Option Buffer :=
  workspace.buffers.find? (·.name == name)

/-- The place of the first buffer of a name. -/
def indexOf? (workspace : Workspace) (name : String) : Option Nat :=
  workspace.buffers.findIdx? (·.name == name)

/-- The active buffer. -/
def activeBuffer? (workspace : Workspace) : Option Buffer :=
  workspace.find? workspace.active

/-- The names of all buffers. -/
def names (workspace : Workspace) : List String :=
  workspace.buffers.map (·.name)

/-- Shows a text in the echo area. -/
def say (workspace : Workspace) (text : String) : Workspace :=
  { workspace with echo := text }

/-- The buffers with a change made to the first one of a name. -/
def modifyNamed (name : String) (change : Buffer → Buffer) : List Buffer → List Buffer
  | [] => []
  | buffer :: rest =>
    if buffer.name == name then change buffer :: rest
    else buffer :: modifyNamed name change rest

/-- Changes the active buffer, if there is one. -/
def modifyActive (workspace : Workspace) (change : Buffer → Buffer) : Workspace :=
  { workspace with buffers := modifyNamed workspace.active change workspace.buffers }

/-- Adds an empty buffer behind the others. -/
def add (workspace : Workspace) (name : String) : Workspace :=
  { workspace with buffers := workspace.buffers ++ [Buffer.named name] }

/-- Makes a buffer the active one, and creates it if there is none of that name. -/
def activate (workspace : Workspace) (name : String) : Workspace :=
  let present := if (workspace.find? name).isSome then workspace else workspace.add name
  { present with active := name }

/-- Removes the first buffer of a name, unless it is the only buffer. If it was active, the first
of the others becomes so. -/
def remove (workspace : Workspace) (name : String) : Workspace :=
  if workspace.buffers.length ≤ 1 then workspace
  else
    match workspace.indexOf? name with
    | none => workspace
    | some i =>
      let others := workspace.buffers.eraseIdx i
      let active :=
        if workspace.active == name then (others.head?.map (·.name)).getD "" else workspace.active
      { workspace with buffers := others, active }

/-- The place of the active buffer; if there is none, the last place counts. -/
def activeIndex (workspace : Workspace) : Nat :=
  (workspace.indexOf? workspace.active).getD (workspace.buffers.length - 1)

/-- The buffer that becomes active when the one at a place goes: the one before it, or the second if
it is the first. -/
def successorOf (workspace : Workspace) (i : Nat) : Option Buffer :=
  workspace.buffers[if i = 0 then 1 else i - 1]?

/-- Removes the active buffer and makes its neighbour active; the only buffer is kept. -/
def removeActive (workspace : Workspace) : Option Workspace :=
  if workspace.buffers.length ≤ 1 then none
  else
    let i := workspace.activeIndex
    let active := ((workspace.successorOf i).map (·.name)).getD workspace.active
    some { workspace with buffers := workspace.buffers.eraseIdx i, active }

/-- What a request does to a workspace. -/
def handle : (request : Request) → Workspace → request.Reply × Workspace
  | .message text, workspace => ((), workspace.say text)
  | .insert text, workspace => ((), workspace.modifyActive (·.insert text))
  | .content, workspace => ((workspace.activeBuffer?.map (·.content)).getD "", workspace)
  | .cursor, workspace => ((workspace.activeBuffer?.map (·.cursor)).getD 0, workspace)
  | .setCursor offset, workspace => ((), workspace.modifyActive (·.moveTo offset))
  | .switchBuffer name, workspace => ((), workspace.activate name)
  | .bufferName, workspace => ((workspace.activeBuffer?.map (·.name)).getD "", workspace)
  | .killBuffer name, workspace => ((), workspace.remove name)

/-- A workspace is a host. -/
instance instHostWorkspace : Host Workspace := ⟨handle⟩

end Workspace

end BufferLisp
