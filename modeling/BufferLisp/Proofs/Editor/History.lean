import BufferLisp.Proofs.Editor.WellFormed
import BufferLisp.Proofs.Eval.Requests
import BufferLisp.Proofs.Workspace.Edit

/-!
# No text is lost in an editor

Every action changes the buffers by edits, and `Action.edits` tells which: the requests that an
evaluation sends, one by one and as far as it comes, or the edit that a command makes.  The
workspace that an action leaves is the one that these edits lead to, but for the echo area
(`Action.perform_makes`), and so is the workspace that a whole run leaves.

What is true of any number of edits is then true of every run from a well-formed workspace
(`Action.performAll_keeps_text`).  A buffer that is not killed keeps its name, its mode and its
protection and loses no text; a buffer that is not marked as modified has the text it was last
settled with; the buffers keep their order, and new ones come last.
-/

set_option autoImplicit false

namespace BufferLisp

/-! ## The edits of an action -/

/-- The edits of an evaluation are the requests that it sends. -/
def Editor.askedEdits {α : Type} (editor : Editor) (action : EvalM (Logged Workspace) α) :
    List Edit :=
  (EvalM.sent editor action).map .request

/-- The edits of evaluating the expression before the cursor. -/
def Editor.lastEdits (limit : Nat) (editor : Editor) : List Edit :=
  match editor.host.activeBuffer? with
  | some buffer => editor.askedEdits (Session.evalLast limit buffer.content buffer.cursor)
  | none => []

/-- The edits of a named command. -/
def Editor.NamedCommand.edits (limit : Nat) (editor : Editor) : NamedCommand → List Edit
  | .kill => [.kill]
  | .evalLast => editor.lastEdits limit
  | .save => [.save]
  | .nextLine => [.down]
  | .previousLine => [.up]
  | .quit => []

/-- The edits of the command of a name, if there is one. -/
def Editor.namedEdits (limit : Nat) (editor : Editor) (name : String) : List Edit :=
  match NamedCommand.ofName? (Text.trim name) with
  | some command => command.edits limit editor
  | none => []

/-- The edits of going to a position, if it can be read. -/
def CommandLine.gotoEdits (position : String) : List Edit :=
  match readPosition position with
  | .ok offset => [.request (.setCursor offset)]
  | .error _ => []

/-- The edits of a command line. -/
def CommandLine.edits (limit : Nat) (editor : Editor) : CommandLine → List Edit
  | evalLast => editor.lastEdits limit
  | visit name => [.request (.switchBuffer name)]
  | kill => [.kill]
  | save => [.save]
  | goto position => gotoEdits position
  | run name => editor.namedEdits limit name
  | quit => []
  | buffers => []
  | display => []
  | help => []

namespace Action

/-- The edits that an action makes, in order; what an action only says or asks is no edit. -/
def edits (limit : Nat) (editor : Editor) : Action → List Edit
  | evalExpression source => editor.askedEdits (Session.evalAndEcho limit source)
  | evalToText source => editor.askedEdits (Session.evalToText limit source)
  | evalValue source => editor.askedEdits (Session.evalSource limit source)
  | evalLast => editor.lastEdits limit
  | evalLastIn text cursor => editor.askedEdits (Session.evalLast limit text cursor)
  | visit name => [.request (.switchBuffer name)]
  | save => [.save]
  | kill => [.kill]
  | previousLine => [.up]
  | nextLine => [.down]
  | runNamed name => editor.namedEdits limit name
  | commandLine line => (CommandLine.ofText line).edits limit editor
  | .request r => [.request r]
  | quit => []
  | modeLine => []
  | say _ => []
  | indexOf _ => []
  | names => []

/-- The edits of a run, each action starting where the one before has left the editor. -/
def editsAll (limit : Nat) : Editor → List Action → List Edit
  | _, [] => []
  | editor, action :: rest =>
    action.edits limit editor ++ editsAll limit ((action.perform limit).runOn editor).2 rest

/-- The editor that a run leaves. -/
def last (limit : Nat) (editor : Editor) (actions : List Action) : Editor :=
  ((performAll limit editor actions).map (·.2)).getLastD editor

end Action

/-! ## Making edits -/

namespace EditorM

variable {α β : Type}

/-- A command that changes nothing but the echo area. -/
def Silent (action : EditorM α) : Prop :=
  ∀ editor : Editor, (action.runOn editor).2.host.SameBuffers editor.host

/-- From a well-formed workspace a command leads where its edits lead. -/
def Makes (action : EditorM α) (edits : Editor → List Edit) : Prop :=
  ∀ editor : Editor, editor.host.WellFormed →
    (action.runOn editor).2.host.SameBuffers (Edit.applyAll editor.host (edits editor))

theorem Silent.pure (a : α) : Silent (Pure.pure a) :=
  fun editor => .refl editor.host

theorem Silent.say (text : String) : Silent (EditorM.say text) :=
  fun _ => ⟨rfl, rfl⟩

theorem Silent.activeBuffer : Silent EditorM.activeBuffer := by
  intro editor
  rw [runOn_activeBuffer]
  cases editor.host.activeBuffer? <;> exact .refl editor.host

theorem Silent.bind {action : EditorM α} {next : α → EditorM β} (first : Silent action)
    (second : ∀ a, Silent (next a)) : Silent (action >>= next) := by
  intro editor
  have earlier := first editor
  rw [runOn_bind]
  rcases ran : action.runOn editor with ⟨fault | a, after⟩ <;> rw [ran] at earlier
  · exact earlier
  · exact (second a after).trans earlier

namespace Makes

variable {edits : Editor → List Edit}

theorem of_silent {action : EditorM α} (silent : Silent action) : Makes action fun _ => [] :=
  fun editor _ => silent editor

/-- What follows the edits may only speak. -/
theorem bind {action : EditorM α} {next : α → EditorM β} (first : Makes action edits)
    (second : ∀ a, Silent (next a)) : Makes (action >>= next) edits := by
  intro editor wellFormed
  have made := first editor wellFormed
  rw [runOn_bind]
  rcases ran : action.runOn editor with ⟨fault | a, after⟩ <;> rw [ran] at made
  · exact made
  · exact (second a after).trans made

theorem map (f : α → β) {action : EditorM α} (makes : Makes action edits) :
    Makes (f <$> action) edits := by
  rw [map_eq_pure_bind]
  exact makes.bind fun a => .pure (f a)

/-- A well-formed workspace has an active buffer to go on with. -/
theorem withActive {next : Buffer → EditorM β}
    (makes : ∀ (editor : Editor) (buffer : Buffer), editor.host.WellFormed →
      editor.host.activeBuffer? = some buffer →
      ((next buffer).runOn editor).2.host.SameBuffers
        (Edit.applyAll editor.host (edits editor))) :
    Makes (EditorM.activeBuffer >>= next) edits := by
  intro editor wellFormed
  obtain ⟨buffer, found⟩ := Option.isSome_iff_exists.mp wellFormed.activeBuffer?_isSome
  rw [runOn_bind, runOn_activeBuffer, found]
  exact makes editor buffer wellFormed found

/-- A change of the active buffer is an edit. -/
theorem changeBuffer {change : Buffer → Buffer} {edit : Edit}
    (applies : ∀ workspace, edit.apply workspace = workspace.modifyActive change) :
    Makes (EditorM.changeBuffer change) fun _ => [edit] := by
  refine withActive fun editor _ _ _ => ?_
  change (editor.host.modifyActive change).SameBuffers (edit.apply editor.host)
  rw [applies]
  exact .refl _

/-- An evaluation makes the requests that it sends. -/
theorem ofEval {logged : EvalM (Logged Workspace) α} {plain : EvalM Workspace α}
    (mirrors : EvalM.Mirrors logged plain) :
    Makes (EditorM.ofEval plain) fun editor => editor.askedEdits logged := by
  intro editor _
  have all : Edit.applyAll editor.host (editor.askedEdits logged) =
      Host.handleAll editor.host (EvalM.sent editor logged) :=
    List.foldl_map
  rw [all, ← mirrors.host_eq]
  exact .refl _

end Makes

end EditorM

/-! ## Commands -/

namespace Editor

open EditorM

theorem evalLast_makes (limit : Nat) : Makes (evalLast limit) (lastEdits limit) := by
  refine .withActive ?_
  intro editor buffer wellFormed found
  have makes : Makes (do
      let _ ← ofEval (Session.evalLast limit buffer.content buffer.cursor))
      fun editor => editor.askedEdits (Session.evalLast limit buffer.content buffer.cursor) :=
    .bind (.ofEval (Session.evalLast_mirrors limit buffer.content buffer.cursor)) fun _ => .pure ()
  rw [lastEdits, found]
  exact makes editor wellFormed

/-- A visit goes to a buffer as a request to switch to it does. -/
theorem visit_makes (name : String) :
    Makes (visit name) fun _ => [.request (.switchBuffer name)] := by
  intro editor _
  change (((if (editor.host.find? name).isSome then goTo name else create name) :
    EditorM Unit).runOn editor).2.host.SameBuffers (editor.host.activate name)
  unfold Workspace.activate
  split <;> exact ⟨rfl, rfl⟩

theorem save_makes : Makes save fun _ => [.save] := by
  refine .withActive ?_
  intro editor buffer wellFormed _
  have makes : Makes (do changeBuffer (·.save); say ("Wrote " ++ buffer.name)) fun _ => [.save] :=
    .bind (.changeBuffer fun _ => rfl) fun _ => .say _
  exact makes editor wellFormed

theorem kill_sameBuffers (editor : Editor) :
    (kill.runOn editor).2.host.SameBuffers (editor.host.removeActive.getD editor.host) := by
  rw [kill, runOn_bind, runOn_workspace]
  dsimp only
  cases editor.host.removeActive <;> exact ⟨rfl, rfl⟩

theorem kill_makes : Makes kill fun _ => [.kill] :=
  fun editor _ => kill_sameBuffers editor

theorem previousLine_makes : Makes previousLine fun _ => [.up] :=
  .changeBuffer fun _ => rfl

theorem nextLine_makes : Makes nextLine fun _ => [.down] :=
  .changeBuffer fun _ => rfl

theorem runNamed_makes (limit : Nat) (name : String) :
    Makes (runNamed limit name) fun editor => editor.namedEdits limit name := by
  unfold runNamed namedEdits
  cases NamedCommand.ofName? (Text.trim name) with
  | none => exact .of_silent (.say _)
  | some command =>
      cases command with
      | kill => exact kill_makes
      | evalLast => exact evalLast_makes limit
      | save => exact save_makes
      | nextLine => exact nextLine_makes
      | previousLine => exact previousLine_makes
      | quit => exact .of_silent (.say _)

end Editor

namespace CommandLine

open EditorM

theorem goToPosition_makes (position : String) :
    Makes (goToPosition position) fun _ => gotoEdits position := by
  intro editor _
  have reading : EditorM.runOn editor (ExceptT.mk (pure (readPosition position))) =
      (readPosition position, editor) := rfl
  rw [goToPosition, runOn_bind, reading, gotoEdits]
  cases readPosition position with
  | error fault => exact .refl _
  | ok offset =>
      have silent : Silent (do say (← activeBuffer).cursor.repr) :=
        .bind .activeBuffer fun _ => .say _
      exact silent { editor with host := editor.host.modifyActive (·.moveTo offset) }

theorem quietly_makes {action : EditorM Unit} {edits : Editor → List Edit}
    (makes : Makes action edits) : Makes (quietly action) edits :=
  makes.bind fun _ => .pure _

theorem perform_makes (limit : Nat) (command : CommandLine) :
    Makes (command.perform limit) fun editor => command.edits limit editor := by
  cases command with
  | quit => exact .of_silent (.pure _)
  | evalLast => exact quietly_makes (Editor.evalLast_makes limit)
  | buffers => exact quietly_makes (.of_silent fun _ => ⟨rfl, rfl⟩)
  | visit name => exact quietly_makes (Editor.visit_makes name)
  | kill => exact quietly_makes Editor.kill_makes
  | save => exact quietly_makes Editor.save_makes
  | goto position => exact quietly_makes (goToPosition_makes position)
  | display =>
      exact .of_silent (.bind .activeBuffer fun _ => .bind (.say _) fun _ => .pure _)
  | run name => exact quietly_makes (Editor.runNamed_makes limit name)
  | help => exact quietly_makes (.of_silent (.say _))

end CommandLine

/-! ## Actions and runs -/

namespace Action

open EditorM

theorem silently_makes {action : EditorM Unit} {edits : Editor → List Edit}
    (makes : Makes action edits) : Makes (silently action) edits :=
  makes.bind fun _ => .pure _

/-- **Every action leads where its edits lead.** -/
theorem perform_makes (limit : Nat) (action : Action) :
    Makes (action.perform limit) fun editor => action.edits limit editor := by
  cases action with
  | evalExpression source => exact .map _ (.ofEval (Session.evalAndEcho_mirrors limit source))
  | evalToText source => exact .map _ (.ofEval (Session.evalToText_mirrors limit source))
  | evalValue source => exact .map _ (.ofEval (Session.evalSource_mirrors limit source))
  | evalLast => exact silently_makes (Editor.evalLast_makes limit)
  | evalLastIn text cursor => exact .map _ (.ofEval (Session.evalLast_mirrors limit text cursor))
  | visit name => exact silently_makes (Editor.visit_makes name)
  | save => exact silently_makes Editor.save_makes
  | kill => exact silently_makes Editor.kill_makes
  | previousLine => exact silently_makes Editor.previousLine_makes
  | nextLine => exact silently_makes Editor.nextLine_makes
  | quit => exact silently_makes (.of_silent (.say _))
  | runNamed name => exact silently_makes (Editor.runNamed_makes limit name)
  | modeLine => exact .of_silent (.bind (.bind .activeBuffer fun _ => .pure _) fun _ => .pure _)
  | say text => exact silently_makes (.of_silent (.say text))
  | commandLine line => exact .map _ (CommandLine.perform_makes limit _)
  | request r => exact .map _ (.ofEval (.ask r))
  | indexOf name => exact .of_silent fun editor => .refl editor.host
  | names => exact .of_silent fun editor => .refl editor.host

theorem last_cons (limit : Nat) (editor : Editor) (action : Action) (rest : List Action) :
    last limit editor (action :: rest) = last limit ((action.perform limit).runOn editor).2 rest :=
  List.getLastD_cons

/-- **A run leads where its edits lead.** -/
theorem last_sameBuffers (limit : Nat) (editor : Editor) (wellFormed : editor.host.WellFormed)
    (actions : List Action) :
    (last limit editor actions).host.SameBuffers
      (Edit.applyAll editor.host (editsAll limit editor actions)) := by
  induction actions generalizing editor with
  | nil => exact .refl _
  | cons action rest ih =>
      have made := perform_makes limit action editor wellFormed
      have sound := perform_safe limit action editor wellFormed
      rw [last_cons, editsAll, Edit.applyAll_append]
      exact (ih _ sound.wellFormed).trans (made.applyAll _)

/-- **In every run that starts from a well-formed workspace no text is lost**, and each single kill,
in whatever workspace, takes away one buffer at most. -/
theorem performAll_keeps_text (limit : Nat) (editor : Editor)
    (wellFormed : editor.host.WellFormed) (actions : List Action) :
    Edit.LosesNothing editor.host (last limit editor actions).host
        (editsAll limit editor actions) ∧
      (∀ other : Editor, ∃ i,
        (Editor.kill.runOn other).2.host.buffers = other.host.buffers.eraseIdx i) ∧
      ∀ (other : Workspace) (name : String), ∃ i,
        (Host.handle (.killBuffer name) other).2.buffers = other.buffers.eraseIdx i := by
  refine ⟨Edit.losesNothing wellFormed (last_sameBuffers limit editor wellFormed actions), ?_, ?_⟩
  · intro other
    obtain ⟨i, removed⟩ := other.host.exists_eraseIdx_removeActive
    exact ⟨i, (Editor.kill_sameBuffers other).1.trans removed⟩
  · exact fun other name => other.exists_eraseIdx_remove name

/-- A program that fails has added to one buffer and has killed and remade another, which is then
saved: nothing is lost, and what the editor holds in the end is told by five edits. -/
theorem performAll_keeps_text_fresh :
    let editor : Editor := ⟨Chain.global, Workspace.fresh "a\nb"⟩
    let actions : List Action :=
      [.evalValue "(progn (insert \"x\") (kill-buffer \"*Messages*\")
          (switch-to-buffer \"*Messages*\") (insert \"y\") (car))", .save]
    editor.host.WellFormed ∧
      editsAll 50 editor actions = [.request (.insert "x"), .request (.killBuffer "*Messages*"),
        .request (.switchBuffer "*Messages*"), .request (.insert "y"), .save] ∧
      Edit.LosesNothing editor.host (last 50 editor actions).host (editsAll 50 editor actions) ∧
      ∃ i, (Editor.kill.runOn editor).2.host.buffers = editor.host.buffers.eraseIdx i := by
  intro editor actions
  have wellFormed : editor.host.WellFormed := Workspace.fresh_wellFormed _
  obtain ⟨kept, kills, -⟩ := performAll_keeps_text 50 editor wellFormed actions
  exact ⟨wellFormed, by decide +kernel, kept, kills editor⟩

end Action

end BufferLisp
