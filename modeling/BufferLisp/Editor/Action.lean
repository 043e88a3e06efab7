import BufferLisp.Editor.CommandLine

/-!
# Everything that can happen to an editor

An action is one thing that a user, a program or another component does to an editor.  A run of an
editor is a sequence of actions; each keeps what it has done, also when it fails, and the next one
starts from there.
-/

set_option autoImplicit false

namespace BufferLisp

/-- One thing done to an editor. -/
inductive Action where
  /-- Evaluate a text and echo the answer. -/
  | evalExpression (source : String)
  /-- Evaluate a text for its answer, without an echo. -/
  | evalToText (source : String)
  /-- Evaluate a text for its value. -/
  | evalValue (source : String)
  /-- Evaluate the expression before the cursor. -/
  | evalLast
  /-- Evaluate the expression before an offset of a given text. -/
  | evalLastIn (text : String) (cursor : Int)
  /-- Go to a buffer, and make it if need be. -/
  | visit (name : String)
  | save
  | kill
  | previousLine
  | nextLine
  | quit
  /-- Run a command by its name. -/
  | runNamed (name : String)
  /-- The summary line of the active buffer. -/
  | modeLine
  /-- Show a text in the echo area. -/
  | say (text : String)
  /-- Run a command line. -/
  | commandLine (line : String)
  /-- Send a request as a program would. -/
  | request (request : Request)
  /-- The place of the first buffer of a name. -/
  | indexOf (name : String)
  /-- The names of all buffers. -/
  | names
  deriving Repr, DecidableEq

/-- What an action answers. -/
inductive Answer where
  | nothing
  | text (text : String)
  | value (value : Value)
  | number (number : Int)
  | names (names : List String)
  | effect (effect : CommandLine.Effect)

/-- A host's reply as an answer. -/
def Request.answer : (request : Request) → request.Reply → Answer
  | .content, reply => .text reply
  | .cursor, reply => .number reply
  | .bufferName, reply => .text reply
  | .message _, _ => .nothing
  | .insert _, _ => .nothing
  | .setCursor _, _ => .nothing
  | .switchBuffer _, _ => .nothing
  | .killBuffer _, _ => .nothing

namespace Action

open EditorM

/-- Does a command that has nothing to answer. -/
def silently (action : EditorM Unit) : EditorM Answer := do
  action
  return .nothing

/-- Does an action. -/
def perform (limit : Nat) : Action → EditorM Answer
  | evalExpression source => .text <$> Editor.evalExpression limit source
  | evalToText source => .text <$> ofEval (Session.evalToText limit source)
  | evalValue source => .value <$> ofEval (Session.evalSource limit source)
  | evalLast => silently (Editor.evalLast limit)
  | evalLastIn text cursor => .text <$> ofEval (Session.evalLast limit text cursor)
  | visit name => silently (Editor.visit name)
  | save => silently Editor.save
  | kill => silently Editor.kill
  | previousLine => silently Editor.previousLine
  | nextLine => silently Editor.nextLine
  | quit => silently Editor.quit
  | runNamed name => silently (Editor.runNamed limit name)
  | modeLine => .text <$> Editor.modeLine
  | say text => silently (EditorM.say text)
  | commandLine line => .effect <$> (CommandLine.ofText line).perform limit
  | .request r => r.answer <$> ofEval (EvalM.ask r)
  | indexOf name => do
    return .number ((((← workspace).indexOf? name).map Int.ofNat).getD (-1))
  | names => do return .names (← workspace).names

/-- Does actions one after the other, each on what the ones before have left, failed ones
included. -/
def performAll (limit : Nat) : Editor → List Action → List (Except Fault Answer × Editor)
  | _, [] => []
  | editor, action :: rest =>
    let (answer, after) := (action.perform limit).runOn editor
    (answer, after) :: performAll limit after rest

end Action

end BufferLisp
