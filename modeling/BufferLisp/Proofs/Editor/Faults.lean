import BufferLisp.Proofs.Editor.WellFormed
import BufferLisp.Proofs.Eval.Bounds
import BufferLisp.Proofs.Number.Rounding

/-!
# The faults of commands

On a well-formed workspace a command fails for two reasons only.  The program that it evaluates may
run away: its evaluations nest deeper than the limit, or it asks for an offset in a buffer that is
too long for the offset to be a finite number.  And the position that it goes to may be no numeral.
`CommandLine.perform_fails` tells for each command line with which fault it fails and when.

A position that is typed at the prompt looks like one if it has digits of any kind behind any number
of minus signs.  A numeral has at most one minus sign, decimal digits only, and not too many of them
(`CommandLine.readPosition_isOk_iff`), so not everything that looks like a position can be read.
-/

set_option autoImplicit false

namespace BufferLisp

theorem Workspace.WellFormed.exists_active {workspace : Workspace}
    (wellFormed : workspace.WellFormed) : ∃ buffer, workspace.activeBuffer? = some buffer :=
  Option.isSome_iff_exists.mp wellFormed.activeBuffer?_isSome

/-- A program leaves a workspace well formed, since it changes it by requests only. -/
theorem EvalM.Does.wellFormed {α : Type} {targets : String → Prop} {action : EvalM Workspace α}
    (does : action.Does targets) {editor : Editor} (wellFormed : editor.host.WellFormed) :
    (action.runOn editor).2.host.WellFormed :=
  (does editor).host.keeps (fun request _ kept => kept.handle request) wellFormed

/-! ## Failing commands -/

namespace EditorM

variable {α β : Type} {faults : Editor → Fault → Prop}

/-- From a well-formed workspace the command fails exactly with the faults that are told. -/
def Fails (faults : Editor → Fault → Prop) (action : EditorM α) : Prop :=
  ∀ editor : Editor, editor.host.WellFormed →
    ∀ fault, (action.runOn editor).1 = .error fault ↔ faults editor fault

/-- No fault at all. -/
def never : Editor → Fault → Prop :=
  fun _ _ => False

namespace Fails

theorem of_ok {action : EditorM α}
    (ends : ∀ editor : Editor, editor.host.WellFormed → ∃ a, (action.runOn editor).1 = .ok a) :
    Fails never action := by
  intro editor wellFormed fault
  obtain ⟨a, ran⟩ := ends editor wellFormed
  rw [ran]
  exact ⟨nofun, False.elim⟩

theorem congr {others : Editor → Fault → Prop} {action : EditorM α} (fails : Fails faults action)
    (same : ∀ editor fault, faults editor fault ↔ others editor fault) : Fails others action :=
  fun editor wellFormed fault => (fails editor wellFormed fault).trans (same editor fault)

theorem pure (a : α) : Fails never (Pure.pure a) :=
  .of_ok fun _ _ => ⟨a, rfl⟩

theorem modifyWorkspace (change : Workspace → Workspace) :
    Fails never (EditorM.modifyWorkspace change) :=
  .of_ok fun _ _ => ⟨(), rfl⟩

theorem say (text : String) : Fails never (EditorM.say text) :=
  .modifyWorkspace _

theorem activeBuffer : Fails never EditorM.activeBuffer := by
  refine .of_ok fun editor wellFormed => ?_
  obtain ⟨buffer, found⟩ := wellFormed.exists_active
  rw [runOn_activeBuffer, found]
  exact ⟨buffer, rfl⟩

/-- A sequence fails as its first command does, if the others do not fail. -/
theorem bind {action : EditorM α} {next : α → EditorM β} (safe : Safe action)
    (first : Fails faults action) (others : ∀ a, Fails never (next a)) :
    Fails faults (action >>= next) := by
  intro editor wellFormed fault
  have sound := safe editor wellFormed
  rw [← first editor wellFormed fault, runOn_bind]
  generalize action.runOn editor = ran at sound ⊢
  rcases ran with ⟨other | a, after⟩
  · rw [Except.error.injEq, Except.error.injEq]
  · exact ⟨fun failed => ((others a after sound.wellFormed fault).mp failed).elim, nofun⟩

/-- What follows a look at the active buffer has only to fail as told on that buffer. -/
theorem withActive {next : Buffer → EditorM β}
    (fails : ∀ (editor : Editor) (buffer : Buffer), editor.host.WellFormed →
      editor.host.activeBuffer? = some buffer →
      ∀ fault, ((next buffer).runOn editor).1 = .error fault ↔ faults editor fault) :
    Fails faults (EditorM.activeBuffer >>= next) := by
  intro editor wellFormed
  obtain ⟨buffer, found⟩ := wellFormed.exists_active
  rw [runOn_bind, runOn_activeBuffer, found]
  exact fails editor buffer wellFormed found

theorem changeBuffer (change : Buffer → Buffer) : Fails never (EditorM.changeBuffer change) :=
  .bind .activeBuffer .activeBuffer fun _ => .modifyWorkspace _

/-- A program fails as its evaluation stops. -/
theorem ofEval {action : EvalM Workspace α}
    (stops : ∀ editor : Editor, editor.host.WellFormed → ∀ fault,
      (∃ cause, (action.runOn editor).1 = .error cause ∧ .stopped cause = fault) ↔
        faults editor fault) :
    Fails faults (EditorM.ofEval action) := by
  intro editor wellFormed fault
  rw [← stops editor wellFormed fault, runOn_ofEval]
  dsimp only
  cases (action.runOn editor).1 with
  | ok a => exact ⟨nofun, nofun⟩
  | error cause => simp [Except.mapError]

end Fails

end EditorM

/-! ## Programs that run away -/

namespace Session

variable {σ : Type} [Host σ]

/-- Only errors of the program become the text of an answer. -/
theorem answerText_eq_error_iff {outcome : Except Stop Value} {cause : Stop} :
    answerText outcome = .error cause ↔
      outcome = .error cause ∧ ∀ error, cause ≠ .error error := by
  rcases outcome with (error | _ | _) | value
  · refine ⟨nofun, fun ⟨same, other⟩ => ?_⟩
    exact absurd (Except.error.inj same).symm (other error)
  all_goals simp +contextual [answerText, eq_comm]

theorem evalAndEcho_stops_iff (limit : Nat) (source : String) (world : World σ) (cause : Stop) :
    ((evalAndEcho limit source).runOn world).1 = .error cause ↔
      ((evalSource limit source).runOn world).1 = .error cause ∧
        ∀ error, cause ≠ .error error := by
  have text : (evalToText limit source).runOn world =
      (answerText ((evalSource limit source).runOn world).1,
        ((evalSource limit source).runOn world).2) := rfl
  rw [← answerText_eq_error_iff, evalAndEcho, EvalM.runOn_bind, text]
  cases answerText ((evalSource limit source).runOn world).1 with
  | ok answer => exact ⟨nofun, nofun⟩
  | error other => rfl

theorem evalSource_overflows {limit : Nat} {source : String} {world after : World σ}
    (stops : (evalSource limit source).runOn world = (.error .outOfRange, after)) :
    Host.Overflows after.host := by
  have within : (evalSource limit source : EvalM σ Value).Within (.askedOffsets σ) fun _ => True := by
    refine .bind (.check Bounds.askedOffsets_admits.error _) ?_
    intro e _
    exact eval_within Bounds.askedOffsets_admits (fun _ same => nomatch same) limit trivial
  have held := within world fun _ _ _ _ => trivial
  rw [stops] at held
  exact held.stop .outOfRange rfl rfl

end Session

/-- A buffer that is so long that an offset in it need not be a finite number. -/
def Buffer.Huge (buffer : Buffer) : Prop :=
  2 ^ 1023 ≤ buffer.content.length

/-- In a well-formed workspace an offset is no number only if there is a huge buffer. -/
theorem Workspace.WellFormed.huge_of_overflows {workspace : Workspace}
    (wellFormed : workspace.WellFormed) (overflows : Host.Overflows workspace) :
    ∃ buffer ∈ workspace.buffers, buffer.Huge := by
  obtain ⟨buffer, active⟩ := wellFormed.exists_active
  have member : buffer ∈ workspace.buffers := List.mem_of_find?_eq_some active
  refine ⟨buffer, member, ?_⟩
  -- Neither the question for the cursor nor the one for the text changes the workspace.
  obtain ⟨_, ⟨rfl, beyond⟩ | ⟨rfl, beyond⟩⟩ := overflows
  · have cursor : (Host.handle Request.cursor workspace).1 = buffer.cursor := by
      change (workspace.activeBuffer?.map _).getD _ = _
      rw [active]
      rfl
    obtain ⟨low, high⟩ := wellFormed.cursors buffer member
    have within : buffer.cursor.natAbs ≤ buffer.content.length := by omega
    exact (Number.two_pow_le_of_ofInt?_none (cursor ▸ beyond)).trans within
  · have content : (Host.handle Request.content workspace).1 = buffer.content := by
      change (workspace.activeBuffer?.map _).getD _ = _
      rw [active]
      rfl
    exact Number.two_pow_le_of_ofInt?_none (content ▸ beyond)

namespace Editor

/-- Evaluating a text in an editor runs away: the evaluations nest too deep, or an offset is asked for
in a buffer in which offsets need not be finite numbers. -/
inductive Runaway (limit : Nat) (editor : Editor) (source : String) : Fault → Prop where
  | exhausted
      (stops : ((Session.evalSource limit source).runOn editor).1 = .error .exhausted) :
      Runaway limit editor source (.stopped .exhausted)
  | outOfRange {after : Editor} {buffer : Buffer}
      (stops : (Session.evalSource limit source).runOn editor = (.error .outOfRange, after))
      (member : buffer ∈ after.host.buffers) (huge : buffer.Huge) :
      Runaway limit editor source (.stopped .outOfRange)

/-- An answer is missing exactly if the evaluation has run away. -/
theorem runaway_iff (limit : Nat) (source : String) (editor : Editor)
    (wellFormed : editor.host.WellFormed) (fault : Fault) :
    (∃ cause, ((Session.evalAndEcho limit source).runOn editor).1 = .error cause ∧
      .stopped cause = fault) ↔ Runaway limit editor source fault := by
  constructor
  · rintro ⟨cause, stops, rfl⟩
    obtain ⟨stops, other⟩ := (Session.evalAndEcho_stops_iff limit source editor cause).mp stops
    cases cause with
    | error error => exact absurd rfl (other error)
    | exhausted => exact .exhausted stops
    | outOfRange =>
        have after := (Session.evalSource_does limit source).wellFormed wellFormed
        have stops : (Session.evalSource limit source).runOn editor = (.error .outOfRange, _) :=
          Prod.ext stops rfl
        obtain ⟨buffer, member, huge⟩ :=
          after.huge_of_overflows (Session.evalSource_overflows stops)
        exact .outOfRange stops member huge
  · intro runaway
    cases runaway with
    | exhausted stops =>
        exact ⟨_, (Session.evalAndEcho_stops_iff ..).mpr ⟨stops, fun _ => nofun⟩, rfl⟩
    | outOfRange stops _ _ =>
        exact ⟨.outOfRange,
          (Session.evalAndEcho_stops_iff ..).mpr ⟨by rw [stops], fun _ => nofun⟩, rfl⟩

/-! ## Commands -/

open EditorM

/-- The expression before the cursor of the active buffer, as it is evaluated. -/
def lastSource? (editor : Editor) : Option String :=
  editor.host.activeBuffer?.bind fun buffer =>
    (lastExpression? buffer.content buffer.cursor).filter (!·.isEmpty)

theorem evalExpression_fails (limit : Nat) (source : String) :
    Fails (fun editor => Runaway limit editor source) (evalExpression limit source) :=
  .ofEval (runaway_iff limit source)

theorem evalLastIn_fails (limit : Nat) (text : String) (cursor : Int) :
    Fails (fun editor fault => ∃ source,
      (lastExpression? text cursor).filter (!·.isEmpty) = some source ∧
        Runaway limit editor source fault)
      (ofEval (Session.evalLast limit text cursor)) := by
  have nothing : Fails never (ofEval Session.evalLast.echoNothing) := .of_ok fun _ _ => ⟨_, rfl⟩
  rw [Session.evalLast]
  cases lastExpression? text cursor with
  | none => exact nothing.congr fun _ _ => by simp [never]
  | some source =>
      dsimp only
      split
      · next empty => exact nothing.congr fun _ _ => by simp [never, Option.filter, empty]
      · next written =>
        exact (evalExpression_fails limit source).congr fun _ _ => by simp [Option.filter, written]

theorem evalLast_fails (limit : Nat) :
    Fails (fun editor fault => ∃ source, editor.lastSource? = some source ∧
      Runaway limit editor source fault) (evalLast limit) := by
  refine .withActive fun editor buffer wellFormed found fault => ?_
  have fails := Fails.bind (.ofEval (Session.evalLast_does limit buffer.content buffer.cursor))
    (evalLastIn_fails limit buffer.content buffer.cursor) fun _ => .pure ()
  rw [lastSource?, found]
  exact fails editor wellFormed fault

theorem visit_fails (name : String) : Fails never (visit name) := by
  refine .of_ok fun editor _ => ⟨(), ?_⟩
  rw [visit, runOn_bind, runOn_workspace]
  dsimp only
  split <;> rfl

theorem save_fails : Fails never save :=
  .bind .activeBuffer .activeBuffer fun _ =>
    .bind (.changeBuffer Buffer.save_proper) (.changeBuffer _) fun _ => .say _

theorem kill_fails : Fails never kill := by
  refine .of_ok fun editor _ => ⟨(), ?_⟩
  rw [kill, runOn_bind, runOn_workspace]
  dsimp only
  cases editor.host.removeActive <;> rfl

theorem previousLine_fails : Fails never previousLine :=
  .changeBuffer _

theorem nextLine_fails : Fails never nextLine :=
  .changeBuffer _

theorem quit_fails : Fails never quit :=
  .say _

/-- The text that a command evaluates if it is run by name. -/
def namedSource? (editor : Editor) (name : String) : Option String :=
  match NamedCommand.ofName? (Text.trim name) with
  | some .evalLast => editor.lastSource?
  | _ => none

theorem runNamed_fails (limit : Nat) (name : String) :
    Fails (fun editor fault => ∃ source, editor.namedSource? name = some source ∧
      Runaway limit editor source fault) (runNamed limit name) := by
  have idle {action : EditorM Unit} (total : Fails never action) :
      Fails (fun editor fault => ∃ source, none = some source ∧ Runaway limit editor source fault)
        action :=
    total.congr fun _ _ => ⟨False.elim, nofun⟩
  rw [runNamed]
  unfold namedSource?
  cases NamedCommand.ofName? (Text.trim name) with
  | none => exact idle (.say _)
  | some command =>
      cases command with
      | kill => exact idle kill_fails
      | evalLast => exact evalLast_fails limit
      | save => exact idle save_fails
      | nextLine => exact idle nextLine_fails
      | previousLine => exact idle previousLine_fails
      | quit => exact idle quit_fails

end Editor

/-! ## Command lines -/

namespace CommandLine

open EditorM

/-- Decimal digits, at least one and not too many. -/
structure Decimals (digits : List Char) : Prop where
  nonempty : digits ≠ []
  short : digits.length ≤ positionDigits
  decimal : ∀ c ∈ digits, (Text.decimalValue? c).isSome

/-- A position that can be read: decimal digits, with at most one minus sign in front. -/
def IsNumeral (text : String) : Prop :=
  ∃ digits, Decimals digits ∧ (text.toList = digits ∨ text.toList = '-' :: digits)

theorem not_decimals_minus (cs : List Char) : ¬ Decimals ('-' :: cs) :=
  fun decimals => absurd (decimals.decimal '-' List.mem_cons_self) (by decide)

/-- The two checks on what stands behind the sign pass exactly for decimals. -/
theorem decimals_iff (body : List Char) :
    let values := (body.takeWhile fun c => (Text.decimalValue? c).isSome).filterMap
      Text.decimalValue?
    ¬ positionDigits < values.length ∧ ¬ (values.isEmpty || values.length != body.length) = true ↔
      Decimals body := by
  intro values
  have fewer : values.length ≤ (body.takeWhile fun c => (Text.decimalValue? c).isSome).length :=
    List.length_filterMap_le _ _
  have front := List.takeWhile_prefix (l := body) fun c => (Text.decimalValue? c).isSome
  simp only [Bool.or_eq_true, List.isEmpty_iff, bne_iff_ne, not_or, not_not, not_lt]
  constructor
  · rintro ⟨short, some, same⟩
    -- As many values as characters: no character was dropped, and each has a value.
    have whole := front.eq_of_length (Nat.le_antisymm front.length_le (same ▸ fewer))
    refine ⟨fun empty => some ?_, same ▸ short, fun c member => ?_⟩
    · exact List.eq_nil_of_length_eq_zero (same.trans (by rw [empty]; rfl))
    · exact List.mem_takeWhile_imp (p := fun c => (Text.decimalValue? c).isSome) (whole ▸ member)
  · intro decimals
    have whole : (body.takeWhile fun c => (Text.decimalValue? c).isSome) = body :=
      List.takeWhile_eq_self_iff.mpr decimals.decimal
    have same : values.length = body.length :=
      (congrArg (fun front => (List.filterMap Text.decimalValue? front).length) whole).trans
        (List.filterMap_length_eq_length.mpr decimals.decimal)
    refine ⟨same ▸ decimals.short, fun none => decimals.nonempty ?_, same⟩
    exact List.eq_nil_of_length_eq_zero (same.symm.trans (by rw [none]; rfl))

/-- **A position can be read exactly if it is a numeral.** -/
theorem readPosition_isOk_iff (text : String) :
    (∃ offset, readPosition text = .ok offset) ↔ IsNumeral text := by
  have checked {a b : Prop} [Decidable a] [Decidable b] (f g : Fault) (i : Int) :
      (∃ offset, (if a then .error f else if b then .error g else .ok i) = Except.ok offset) ↔
        ¬ a ∧ ¬ b := by
    by_cases a <;> by_cases b <;> simp [*]
  unfold readPosition IsNumeral
  dsimp only
  -- One minus sign is taken off; a second one would stand among the digits.
  split
  · next rest minus =>
    rw [minus]
    refine (checked _ _ _).trans ((decimals_iff rest).trans ?_)
    constructor
    · exact fun decimals => ⟨rest, decimals, .inr rfl⟩
    · rintro ⟨digits, decimals, rfl | same⟩
      · exact absurd decimals (not_decimals_minus rest)
      · exact (List.cons.inj same).2 ▸ decimals
  · next unsigned =>
    refine (checked _ _ _).trans ((decimals_iff _).trans ?_)
    constructor
    · exact fun decimals => ⟨_, decimals, .inl rfl⟩
    · rintro ⟨digits, decimals, rfl | same⟩
      · exact decimals
      · exact absurd same (unsigned digits)

theorem goToPosition_fails (text : String) :
    Fails (fun _ fault => readPosition text = .error fault) (goToPosition text) := by
  have reading : Safe (ExceptT.mk (pure (readPosition text)) : EditorM Int) :=
    fun _ wellFormed => ⟨wellFormed, readPosition_ne_missing text⟩
  refine .bind reading (fun _ _ _ => Iff.rfl) fun offset => ?_
  refine .bind (.modifyWorkspace fun _ wellFormed =>
    wellFormed.modifyActive (Buffer.moveTo_proper offset)) (.modifyWorkspace _) fun _ => ?_
  exact .bind .activeBuffer .activeBuffer fun _ => .say _

/-- The text that a command line evaluates. -/
def evaluated? (editor : Editor) : CommandLine → Option String
  | evalLast => editor.lastSource?
  | run name => editor.namedSource? name
  | _ => none

/-- The faults of a command line: what it evaluates runs away, or it goes to what is no numeral. -/
inductive Breaks (limit : Nat) (editor : Editor) : CommandLine → Fault → Prop where
  | runaway {command : CommandLine} {source : String} {fault : Fault}
      (evaluated : command.evaluated? editor = some source)
      (runaway : editor.Runaway limit source fault) : Breaks limit editor command fault
  | position {text : String} {fault : Fault} (unreadable : ¬ IsNumeral text)
      (refused : readPosition text = .error fault) : Breaks limit editor (.goto text) fault

theorem breaks_iff_runaway (limit : Nat) {command : CommandLine}
    (stays : ∀ text, command ≠ .goto text) (editor : Editor) (fault : Fault) :
    command.Breaks limit editor fault ↔
      ∃ source, command.evaluated? editor = some source ∧ editor.Runaway limit source fault := by
  refine ⟨fun breaks => ?_, fun ⟨_, evaluated, runaway⟩ => .runaway evaluated runaway⟩
  cases breaks with
  | runaway evaluated runaway => exact ⟨_, evaluated, runaway⟩
  | position => exact absurd rfl (stays _)

theorem breaks_goto_iff (limit : Nat) (text : String) (editor : Editor) (fault : Fault) :
    (goto text).Breaks limit editor fault ↔ readPosition text = .error fault := by
  refine ⟨fun breaks => ?_, fun refused => .position (fun numeral => ?_) refused⟩
  · cases breaks with
    | runaway evaluated => nomatch evaluated
    | position _ refused => exact refused
  · obtain ⟨offset, read⟩ := (readPosition_isOk_iff text).mpr numeral
    exact nomatch read.symm.trans refused

theorem quietly_fails {faults : Editor → Fault → Prop} {action : EditorM Unit} (safe : Safe action)
    (fails : Fails faults action) : Fails faults (quietly action) :=
  .bind safe fails fun _ => .pure _

/-- **A command line fails exactly if what it evaluates runs away, or if it goes to a position that is
no numeral.** -/
theorem perform_fails (limit : Nat) (command : CommandLine) :
    Fails (fun editor => command.Breaks limit editor) (command.perform limit) := by
  have evaluating {command : CommandLine} (stays : ∀ text, command ≠ .goto text)
      (fails : Fails (fun editor fault => ∃ source, command.evaluated? editor = some source ∧
        editor.Runaway limit source fault) (command.perform limit)) :
      Fails (fun editor => command.Breaks limit editor) (command.perform limit) :=
    fails.congr fun editor fault => (breaks_iff_runaway limit stays editor fault).symm
  have idle {command : CommandLine} (stays : ∀ text, command ≠ .goto text)
      (idle : ∀ editor, command.evaluated? editor = none)
      (total : Fails never (command.perform limit)) :
      Fails (fun editor => command.Breaks limit editor) (command.perform limit) :=
    evaluating stays (total.congr fun editor _ => by simp [never, idle editor])
  cases command with
  | quit => exact idle nofun (fun _ => rfl) (.pure _)
  | evalLast =>
      exact evaluating nofun
        (quietly_fails (Editor.evalLast_safe limit) (Editor.evalLast_fails limit))
  | buffers => exact idle nofun (fun _ => rfl) (.of_ok fun _ _ => ⟨_, rfl⟩)
  | visit name =>
      exact idle nofun (fun _ => rfl)
        (quietly_fails (Editor.visit_safe name) (Editor.visit_fails name))
  | kill => exact idle nofun (fun _ => rfl) (quietly_fails Editor.kill_safe Editor.kill_fails)
  | save => exact idle nofun (fun _ => rfl) (quietly_fails Editor.save_safe Editor.save_fails)
  | goto text =>
      exact .congr (quietly_fails (goToPosition_safe text) (goToPosition_fails text))
        fun editor fault => (breaks_goto_iff limit text editor fault).symm
  | display =>
      exact idle nofun (fun _ => rfl)
        (.bind .activeBuffer .activeBuffer fun _ => .bind (.say _) (.say _) fun _ => .pure _)
  | run name =>
      exact evaluating nofun
        (quietly_fails (Editor.runNamed_safe limit name) (Editor.runNamed_fails limit name))
  | help => exact idle nofun (fun _ => rfl) (quietly_fails (.say _) (.say _))

end CommandLine

end BufferLisp
