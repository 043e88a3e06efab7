import BufferLisp.Editor.Action
import BufferLisp.Proofs.Eval.Effect
import BufferLisp.Proofs.Workspace.WellFormed

/-!
# Editors stay well formed

Whatever is done to an editor with a well-formed workspace, the workspace is well formed afterwards:
also when a program stops half-way, and when a position cannot be read.  The active buffer is
therefore always there, and no command ever fails for lack of it (`performAll_wellFormed`).

A command that is safe on its own is safe in a sequence (`Safe.bind`), so each command is taken
apart into the changes that it makes to the workspace.  A program changes the workspace by requests
only, each of which keeps it well formed.
-/

set_option autoImplicit false

namespace BufferLisp

namespace EditorM

variable {α β : Type}

/-- The workspace is well formed, and the run has not failed for lack of the active buffer. -/
structure Sound (ran : Except Fault α × Editor) : Prop where
  wellFormed : ran.2.host.WellFormed
  present : ∀ name, ran.1 ≠ .error (.missingBuffer name)

/-- From a well-formed workspace every run is sound. -/
def Safe (action : EditorM α) : Prop :=
  ∀ editor : Editor, editor.host.WellFormed → Sound (action.runOn editor)

namespace Safe

theorem pure (a : α) : Safe (Pure.pure a) :=
  fun _ wellFormed => ⟨wellFormed, fun _ => nofun⟩

theorem bind {action : EditorM α} {next : α → EditorM β} (first : Safe action)
    (second : ∀ a, Safe (next a)) : Safe (action >>= next) := by
  intro editor wellFormed
  have sound := first editor wellFormed
  rw [runOn_bind]
  rcases ran : action.runOn editor with ⟨fault | a, after⟩ <;> rw [ran] at sound
  · exact ⟨sound.wellFormed, fun name same => sound.present name (by cases same; rfl)⟩
  · exact second a after sound.wellFormed

theorem map (f : α → β) {action : EditorM α} (safe : Safe action) : Safe (f <$> action) := by
  rw [map_eq_pure_bind]
  exact safe.bind fun a => .pure (f a)

/-- What follows a look at the workspace has only to be safe on that workspace. -/
theorem look {next : Workspace → EditorM β}
    (sound : ∀ editor : Editor, editor.host.WellFormed → Sound ((next editor.host).runOn editor)) :
    Safe (workspace >>= next) := by
  intro editor wellFormed
  rw [runOn_bind, runOn_workspace]
  exact sound editor wellFormed

theorem modifyWorkspace {change : Workspace → Workspace}
    (kept : ∀ workspace : Workspace, workspace.WellFormed → (change workspace).WellFormed) :
    Safe (EditorM.modifyWorkspace change) :=
  fun editor wellFormed => ⟨kept editor.host wellFormed, fun _ => nofun⟩

theorem say (text : String) : Safe (EditorM.say text) :=
  .modifyWorkspace fun _ wellFormed => wellFormed.say text

theorem activeBuffer : Safe EditorM.activeBuffer := by
  intro editor wellFormed
  obtain ⟨buffer, found⟩ := Option.isSome_iff_exists.mp wellFormed.activeBuffer?_isSome
  rw [runOn_activeBuffer, found]
  exact ⟨wellFormed, fun _ => nofun⟩

theorem changeBuffer {change : Buffer → Buffer} (proper : Buffer.Proper change) :
    Safe (EditorM.changeBuffer change) :=
  .bind .activeBuffer fun _ => .modifyWorkspace fun _ wellFormed => wellFormed.modifyActive proper

/-- A program changes the workspace by requests only. -/
theorem ofEval {action : EvalM Workspace α} (does : action.Does Session.anyName) :
    Safe (EditorM.ofEval action) := by
  intro editor wellFormed
  have reaches := (does editor).host
  refine ⟨reaches.keeps (fun request host kept => kept.handle request) wellFormed, ?_⟩
  intro name
  rw [runOn_ofEval]
  dsimp only
  cases (action.runOn editor).1 <;> exact nofun

end Safe

end EditorM

/-! ## Commands -/

namespace Editor

open EditorM

theorem evalExpression_safe (limit : Nat) (source : String) : Safe (evalExpression limit source) :=
  .ofEval (Session.evalAndEcho_does limit source)

theorem evalLast_safe (limit : Nat) : Safe (evalLast limit) :=
  .bind .activeBuffer fun buffer =>
    .bind (.ofEval (Session.evalLast_does limit buffer.content buffer.cursor)) fun _ => .pure ()

/-- A visit goes to a buffer that is there or adds one under a new name. -/
theorem visit_safe (name : String) : Safe (visit name) := by
  refine .look ?_
  intro editor wellFormed
  split
  · next found =>
    have present := (editor.host.find?_isSome_iff name).mp found
    exact ⟨(wellFormed.choose present).say _, fun _ => nofun⟩
  · next missing =>
    have absent : name ∉ editor.host.names := fun member =>
      missing ((editor.host.find?_isSome_iff name).mpr member)
    have added := (wellFormed.add absent).choose
      (Workspace.WellFormed.mem_names_add editor.host name)
    exact ⟨added.say _, fun _ => nofun⟩

theorem save_safe : Safe save :=
  .bind .activeBuffer fun _ => .bind (.changeBuffer Buffer.save_proper) fun _ => .say _

theorem kill_safe : Safe kill := by
  refine .look ?_
  intro editor wellFormed
  cases removed : editor.host.removeActive with
  | none => exact Safe.say _ editor wellFormed
  | some rest =>
      have safe : Safe (do modifyWorkspace fun _ => rest; say "Killed buffer") :=
        .bind (.modifyWorkspace fun _ _ => wellFormed.removeActive removed) fun _ => .say _
      exact safe editor wellFormed

theorem previousLine_safe : Safe previousLine :=
  .changeBuffer Buffer.up_proper

theorem nextLine_safe : Safe nextLine :=
  .changeBuffer Buffer.down_proper

theorem quit_safe : Safe quit :=
  .say _

theorem modeLine_safe : Safe modeLine :=
  .bind .activeBuffer fun _ => .pure _

theorem runNamed_safe (limit : Nat) (name : String) : Safe (runNamed limit name) := by
  rw [runNamed]
  cases NamedCommand.ofName? (Text.trim name) with
  | none => exact .say _
  | some command =>
      cases command with
      | kill => exact kill_safe
      | evalLast => exact evalLast_safe limit
      | save => exact save_safe
      | nextLine => exact nextLine_safe
      | previousLine => exact previousLine_safe
      | quit => exact quit_safe

end Editor

/-! ## Command lines -/

namespace CommandLine

open EditorM

/-- A position that cannot be read is a fault of its own. -/
theorem readPosition_ne_missing (text name : String) :
    readPosition text ≠ .error (.missingBuffer name) := by
  unfold readPosition
  dsimp only
  -- The sign, the number of digits, and what else there is beside digits.
  split <;> split
  · exact nofun
  · split <;> exact nofun
  · exact nofun
  · split <;> exact nofun

theorem goToPosition_safe (text : String) : Safe (goToPosition text) := by
  have reading : Safe (ExceptT.mk (pure (readPosition text)) : EditorM Int) :=
    fun _ wellFormed => ⟨wellFormed, readPosition_ne_missing text⟩
  refine .bind reading ?_
  intro offset
  refine .bind (.modifyWorkspace fun _ wellFormed =>
    wellFormed.modifyActive (Buffer.moveTo_proper offset)) fun _ => ?_
  exact .bind .activeBuffer fun _ => .say _

theorem quietly_safe {action : EditorM Unit} (safe : Safe action) : Safe (quietly action) :=
  safe.bind fun _ => .pure _

theorem perform_safe (limit : Nat) (command : CommandLine) : Safe (command.perform limit) := by
  cases command with
  | quit => exact .pure _
  | evalLast => exact quietly_safe (Editor.evalLast_safe limit)
  | buffers => exact quietly_safe (.look fun editor wellFormed => Safe.say _ editor wellFormed)
  | visit name => exact quietly_safe (Editor.visit_safe name)
  | kill => exact quietly_safe Editor.kill_safe
  | save => exact quietly_safe Editor.save_safe
  | goto position => exact quietly_safe (goToPosition_safe position)
  | display => exact .bind .activeBuffer fun _ => .bind (.say _) fun _ => .pure _
  | run name => exact quietly_safe (Editor.runNamed_safe limit name)
  | help => exact quietly_safe (.say _)

end CommandLine

/-! ## Actions and runs -/

namespace Action

open EditorM

theorem silently_safe {action : EditorM Unit} (safe : Safe action) : Safe (silently action) :=
  safe.bind fun _ => .pure _

/-- **Every action is safe.** -/
theorem perform_safe (limit : Nat) (action : Action) : Safe (action.perform limit) := by
  cases action with
  | evalExpression source => exact .map _ (Editor.evalExpression_safe limit source)
  | evalToText source => exact .map _ (.ofEval (Session.evalToText_does limit source))
  | evalValue source => exact .map _ (.ofEval (Session.evalSource_does limit source))
  | evalLast => exact silently_safe (Editor.evalLast_safe limit)
  | evalLastIn text cursor => exact .map _ (.ofEval (Session.evalLast_does limit text cursor))
  | visit name => exact silently_safe (Editor.visit_safe name)
  | save => exact silently_safe Editor.save_safe
  | kill => exact silently_safe Editor.kill_safe
  | previousLine => exact silently_safe Editor.previousLine_safe
  | nextLine => exact silently_safe Editor.nextLine_safe
  | quit => exact silently_safe Editor.quit_safe
  | runNamed name => exact silently_safe (Editor.runNamed_safe limit name)
  | modeLine => exact .map _ Editor.modeLine_safe
  | say text => exact silently_safe (.say text)
  | commandLine line => exact .map _ (CommandLine.perform_safe limit _)
  | request r => exact .map _ (.ofEval (.ask r))
  | indexOf name => exact .look fun editor wellFormed => Safe.pure _ editor wellFormed
  | names => exact .look fun editor wellFormed => Safe.pure _ editor wellFormed

/-- **In every run that starts from a well-formed workspace, the workspace is well formed after each
action, and no action fails for lack of the active buffer.** -/
theorem performAll_wellFormed (limit : Nat) (editor : Editor)
    (wellFormed : editor.host.WellFormed) (actions : List Action) :
    ∀ entry ∈ performAll limit editor actions,
      entry.2.host.WellFormed ∧ ∀ name, entry.1 ≠ .error (.missingBuffer name) := by
  induction actions generalizing editor with
  | nil => exact nofun
  | cons action rest ih =>
      have sound := perform_safe limit action editor wellFormed
      intro entry member
      rcases List.mem_cons.mp member with rfl | member
      · exact ⟨sound.wellFormed, sound.present⟩
      · exact ih _ sound.wellFormed entry member

/-- A program kills the buffer it runs in and then fails, a position cannot be read, and the last
buffer is killed twice: the new workspace takes it all. -/
theorem performAll_wellFormed_fresh :
    (Workspace.fresh "a\nb").WellFormed ∧
    ∀ entry ∈ performAll 50 ⟨Chain.global, Workspace.fresh "a\nb"⟩
        [.nextLine, .evalExpression "(progn (insert \"x\") (kill-buffer \"*scratch*\") (car))",
          .commandLine ":goto --5", .kill, .kill, .evalLast],
      entry.2.host.WellFormed ∧ ∀ name, entry.1 ≠ .error (.missingBuffer name) :=
  ⟨Workspace.fresh_wellFormed _, performAll_wellFormed 50 _ (Workspace.fresh_wellFormed _) _⟩

end Action

end BufferLisp
