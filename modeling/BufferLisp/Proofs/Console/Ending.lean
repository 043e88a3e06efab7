import BufferLisp.Console
import BufferLisp.Proofs.Editor.Faults

/-!
# How a session ends

A session at the console ends at the end of its input, at a line that quits, or at a line that breaks
it (`Console.run_fault_iff`).  There are two kinds of lines that break a session.  One has a text
evaluated that runs away.  The other goes to a position that looks like one and is no numeral, such
as `--5` or `²`: no blank line, no other command and no error of a program ends a session, whatever
was done before.

Of all nesting, only that of evaluations makes a text run away (`eval`): neither the parentheses of a
line nor those of a value that is printed or compared can be nested too deeply.  Where reading,
printing and comparing run on the same stack as evaluation, a line breaks the session also if they
exhaust it, and such lines are not counted here.

The faults of one line come from those of the command that it gives.  A whole input is taken line
after line, and the workspace stays well formed up to the line where the session ends.
-/

set_option autoImplicit false

namespace BufferLisp

/-! ## What commands return -/

namespace EditorM

variable {α β : Type} {good : β → Prop}

/-- Whatever the command returns is good. -/
def Returns (good : α → Prop) (action : EditorM α) : Prop :=
  ∀ editor a after, action.runOn editor = (.ok a, after) → good a

namespace Returns

theorem pure {b : β} (holds : good b) : Returns good (Pure.pure b) := by
  intro editor a after same
  obtain rfl : b = a := Except.ok.inj (Prod.mk.inj same).1
  exact holds

theorem bind {middle : α → Prop} {action : EditorM α} {next : α → EditorM β}
    (first : Returns middle action) (second : ∀ a, middle a → Returns good (next a)) :
    Returns good (action >>= next) := by
  intro editor b after same
  rw [runOn_bind] at same
  rcases ran : action.runOn editor with ⟨fault | a, between⟩ <;> rw [ran] at same
  · nomatch same
  · exact second a (first editor a between ran) between b after same

/-- What comes last is what counts. -/
theorem last {action : EditorM α} {next : α → EditorM β} (each : ∀ a, Returns good (next a)) :
    Returns good (action >>= next) := by
  have any : Returns (fun _ => True) action := fun _ _ _ _ => trivial
  exact any.bind fun a _ => each a

end Returns

end EditorM

namespace Console

open EditorM

/-! ## One line -/

/-- The faults of a line: those of the command that it gives, or of the text that it is. -/
inductive Breaks (limit : Nat) (editor : Editor) (line : String) : Fault → Prop where
  | command {fault : Fault} (colon : line.toList.head? = some ':')
      (breaks : (CommandLine.ofText line).Breaks limit editor fault) :
      Breaks limit editor line fault
  | expression {fault : Fault} (written : Text.allBlank line = false)
      (plain : line.toList.head? ≠ some ':') (runaway : editor.Runaway limit line fault) :
      Breaks limit editor line fault

/-- A line that ends the session. -/
def Quits (line : String) : Prop :=
  line.toList.head? = some ':' ∧ CommandLine.ofText line = .quit

theorem written_of_colon {line : String} (colon : line.toList.head? = some ':') :
    Text.allBlank line = false := by
  have member : ':' ∈ line.toList := List.mem_of_mem_head? colon
  rw [Text.allBlank, List.all_eq_false]
  exact ⟨':', member, by decide⟩

theorem answer_blank (limit : Nat) {line : String} (blank : Text.allBlank line = true) :
    answer limit line = pure ⟨true, ""⟩ := by
  rw [answer, if_pos blank]

theorem answer_command (limit : Nat) {line : String} (colon : line.toList.head? = some ':') :
    answer limit line = (CommandLine.ofText line).perform limit >>= fun effect =>
      if effect.goesOn then printEcho effect.printed else pure effect := by
  rw [answer, if_neg (by simp [written_of_colon colon]), if_pos (by simp [colon])]

theorem answer_expression (limit : Nat) {line : String} (written : Text.allBlank line = false)
    (plain : line.toList.head? ≠ some ':') :
    answer limit line = Editor.evalExpression limit line >>= fun _ => printEcho "" := by
  rw [answer, if_neg (by simp [written]), if_neg (by simpa using plain)]

theorem printEcho_safe (printed : String) : Safe (printEcho printed) :=
  .look fun _ wellFormed => ⟨wellFormed, fun _ => nofun⟩

theorem printEcho_fails (printed : String) : Fails never (printEcho printed) :=
  .of_ok fun _ _ => ⟨_, rfl⟩

theorem answer_safe (limit : Nat) (line : String) : Safe (answer limit line) := by
  by_cases colon : line.toList.head? = some ':'
  · rw [answer_command limit colon]
    refine .bind (CommandLine.perform_safe limit _) fun effect => ?_
    split
    · exact printEcho_safe _
    · exact .pure _
  · cases written : Text.allBlank line with
    | true => exact answer_blank limit written ▸ .pure _
    | false =>
        rw [answer_expression limit written colon]
        exact .bind (Editor.evalExpression_safe limit line) fun _ => printEcho_safe _

/-- **A line fails exactly if it breaks the session.** -/
theorem answer_fails (limit : Nat) (line : String) :
    Fails (fun editor => Breaks limit editor line) (answer limit line) := by
  by_cases colon : line.toList.head? = some ':'
  · have fails : Fails (fun editor => (CommandLine.ofText line).Breaks limit editor)
        (answer limit line) := by
      rw [answer_command limit colon]
      refine .bind (CommandLine.perform_safe limit _) (CommandLine.perform_fails limit _) ?_
      intro effect
      split
      · exact printEcho_fails _
      · exact .pure _
    refine fails.congr fun editor fault => ⟨.command colon, fun breaks => ?_⟩
    cases breaks with
    | command _ breaks => exact breaks
    | expression _ plain => exact absurd colon plain
  · cases written : Text.allBlank line with
    | true =>
        rw [answer_blank limit written]
        refine (Fails.pure _).congr fun editor fault => ⟨False.elim, fun breaks => ?_⟩
        cases breaks with
        | command other => exact colon other
        | expression other => exact absurd (written.symm.trans other) (by decide)
    | false =>
        rw [answer_expression limit written colon]
        refine (Fails.bind (Editor.evalExpression_safe limit line)
          (Editor.evalExpression_fails limit line) fun _ => printEcho_fails _).congr ?_
        refine fun editor fault => ⟨.expression written colon, fun breaks => ?_⟩
        cases breaks with
        | command other => exact absurd other colon
        | expression _ _ runaway => exact runaway

/-! ## Going on -/

theorem quietly_goesOn (action : EditorM Unit) :
    Returns (·.goesOn = true) (CommandLine.quietly action) :=
  .last fun _ => .pure rfl

theorem printEcho_goesOn (printed : String) : Returns (·.goesOn = true) (printEcho printed) :=
  .last fun _ => .pure rfl

/-- Every command but one lets the session go on. -/
theorem perform_goesOn (limit : Nat) {command : CommandLine} (other : command ≠ .quit) :
    Returns (·.goesOn = true) (command.perform limit) := by
  cases command with
  | quit => exact absurd rfl other
  | display => exact .last fun _ => .last fun _ => .pure rfl
  | _ => exact quietly_goesOn _

theorem answer_goesOn (limit : Nat) {line : String} (other : ¬ Quits line) :
    Returns (·.goesOn = true) (answer limit line) := by
  by_cases colon : line.toList.head? = some ':'
  · rw [answer_command limit colon]
    refine .bind (perform_goesOn limit fun quit => other ⟨colon, quit⟩) fun effect goesOn => ?_
    rw [if_pos goesOn]
    exact printEcho_goesOn _
  · cases written : Text.allBlank line with
    | true => exact answer_blank limit written ▸ .pure rfl
    | false =>
        rw [answer_expression limit written colon]
        exact .last fun _ => printEcho_goesOn _

theorem runOn_answer_quit (limit : Nat) {line : String} (quits : Quits line) (editor : Editor) :
    (answer limit line).runOn editor = (.ok ⟨false, ""⟩, editor) := by
  rw [answer_command limit quits.1, quits.2]
  rfl

/-! ## Whole inputs -/

/-- The editor that is reached by lines that have all been answered, and after which the session goes
on. -/
inductive Reaches (limit : Nat) : Editor → List String → Editor → Prop where
  | start (editor : Editor) : Reaches limit editor [] editor
  | line {editor next reached : Editor} {line printed : String} {rest : List String}
      (answered : (answer limit line).runOn editor = (.ok ⟨true, printed⟩, next))
      (further : Reaches limit next rest reached) : Reaches limit editor (line :: rest) reached

/-- The ways in which a session ends: at the end of its lines, at one that quits, or by the fault of
one that breaks it. -/
inductive Ends (limit : Nat) (start : Editor) (typed : List String) : Option Fault → Prop where
  | atEnd {reached : Editor} (upTo : Reaches limit start typed reached) : Ends limit start typed none
  | quit {taken rest : List String} {line : String} {reached : Editor}
      (split : typed = taken ++ line :: rest) (upTo : Reaches limit start taken reached)
      (quits : Quits line) : Ends limit start typed none
  | broken {taken rest : List String} {line : String} {reached : Editor} {fault : Fault}
      (split : typed = taken ++ line :: rest) (upTo : Reaches limit start taken reached)
      (breaks : Breaks limit reached line fault) : Ends limit start typed (some fault)

variable {limit : Nat} {editor next reached : Editor}

theorem Reaches.wellFormed {taken : List String} (reaches : Reaches limit editor taken reached)
    (wellFormed : editor.host.WellFormed) : reached.host.WellFormed := by
  induction reaches with
  | start => exact wellFormed
  | @line editor next _ line _ _ answered _ ih =>
      have sound := answer_safe limit line editor wellFormed
      rw [answered] at sound
      exact ih sound.wellFormed

/-- A run takes up where lines have led to. -/
theorem Reaches.runLines {taken : List String} (reaches : Reaches limit editor taken reached)
    (output : String) (rest : List String) :
    ∃ shown, runLines limit output editor (taken ++ rest) = runLines limit shown reached rest := by
  induction reaches generalizing output with
  | start => exact ⟨output, rfl⟩
  | line answered _ ih =>
      rw [List.cons_append, Console.runLines, answered]
      exact ih _

theorem Ends.after {line printed : String} {rest : List String} {outcome : Option Fault}
    (answered : (answer limit line).runOn editor = (.ok ⟨true, printed⟩, next))
    (ends : Ends limit next rest outcome) : Ends limit editor (line :: rest) outcome := by
  cases ends with
  | atEnd upTo => exact .atEnd (.line answered upTo)
  | quit split upTo quits =>
      exact .quit (congrArg (line :: ·) split) (.line answered upTo) quits
  | broken split upTo breaks =>
      exact .broken (congrArg (line :: ·) split) (.line answered upTo) breaks

/-- **A run ends in one of these ways.** -/
theorem runLines_ends (output : String) (wellFormed : editor.host.WellFormed)
    (typed : List String) : Ends limit editor typed (runLines limit output editor typed).fault := by
  -- By induction on the lines; the workspace stays well formed from one line to the next.
  induction typed generalizing editor output with
  | nil => exact .atEnd (.start editor)
  | cons line rest ih =>
      have sound := answer_safe limit line editor wellFormed
      rw [runLines]
      by_cases quits : Quits line
      · rw [runOn_answer_quit limit quits]
        exact .quit rfl (.start editor) quits
      · rcases ran : (answer limit line).runOn editor with ⟨fault | ⟨goesOn, printed⟩, next⟩
        · have breaks := (answer_fails limit line editor wellFormed fault).mp (by rw [ran])
          exact .broken rfl (.start editor) breaks
        · obtain rfl : goesOn = true := answer_goesOn limit quits editor _ next ran
          rw [ran] at sound
          exact .after ran (ih _ sound.wellFormed)

/-- **A run ends in one way only.** -/
theorem Ends.fault_eq {typed : List String} {outcome : Option Fault}
    (ends : Ends limit editor typed outcome) (wellFormed : editor.host.WellFormed)
    (output : String) : (runLines limit output editor typed).fault = outcome := by
  cases ends with
  | atEnd upTo =>
      obtain ⟨shown, same⟩ := upTo.runLines output []
      rw [List.append_nil] at same
      rw [same]
      rfl
  | @quit _ rest line reached split upTo quits =>
      obtain ⟨shown, same⟩ := upTo.runLines output (line :: rest)
      rw [split, same, Console.runLines, runOn_answer_quit limit quits]
      rfl
  | @broken _ rest line reached fault split upTo breaks =>
      obtain ⟨shown, same⟩ := upTo.runLines output (line :: rest)
      have failed :=
        (answer_fails limit line reached (upTo.wellFormed wellFormed) fault).mpr breaks
      have ran : (answer limit line).runOn reached = (.error fault, _) := Prod.ext failed rfl
      rw [split, same, Console.runLines, ran]

/-- An editor that could be built has a well-formed workspace. -/
theorem wellFormed_of_ofSettings {settings : Settings}
    (built : Editor.ofSettings limit settings = (.ok (), editor)) : editor.host.WellFormed := by
  have does : (Session.loadPrelude limit settings.preludeText : EvalM Workspace Unit).Does
      Session.anyName := by
    unfold Session.loadPrelude
    split
    · exact .pure ()
    · exact .bind (Session.evalSource_does limit _) fun _ => .pure ()
  have fresh : (Editor.start (Workspace.fresh settings.scratchText)).host.WellFormed :=
    Workspace.fresh_wellFormed settings.scratchText
  have wellFormed := does.wellFormed fresh
  rw [Editor.ofSettings, Editor.load] at built
  rwa [built] at wellFormed

/-- **How sessions end.**  A session whose editor could be built ends at the end of its input or at a
line that quits, or by the fault of a line that breaks it, and exactly so.  In every editor that a
session reaches, a command line fails exactly if the text that it evaluates runs away or if it goes
to a position that is no numeral; and numerals are all that can be read. -/
theorem run_fault_iff (limit : Nat) (settings : Settings) {editor : Editor}
    (built : Editor.ofSettings limit settings = (.ok (), editor)) :
    (∀ input outcome, (run limit settings input).fault = outcome ↔
      Ends limit editor (lines input) outcome) ∧
    (∀ taken reached, Reaches limit editor taken reached →
      ∀ line, line.toList.head? = some ':' → ∀ fault,
        (((CommandLine.ofText line).perform limit).runOn reached).1 = .error fault ↔
          (CommandLine.ofText line).Breaks limit reached fault) ∧
    ∀ text, (∃ offset, CommandLine.readPosition text = .ok offset) ↔
      CommandLine.IsNumeral text := by
  have wellFormed := wellFormed_of_ofSettings built
  refine ⟨fun input outcome => ?_, fun taken reached reaches line _ fault => ?_,
    CommandLine.readPosition_isOk_iff⟩
  · have same : run limit settings input = runLines limit "" editor (lines input) := by
      rw [run, built]
    rw [same]
    refine ⟨fun fault => ?_, fun ends => ends.fault_eq wellFormed ""⟩
    exact fault ▸ runLines_ends "" wellFormed (lines input)
  · exact CommandLine.perform_fails limit _ reached (reaches.wellFormed wellFormed) fault

/-- Code is loaded and a program fails, and then a position has two minus signs: the session ends
there, and not at the line that quits. -/
theorem run_fault_iff_signs :
    let settings : Settings := { scratch := some "abcdef", initText := some "(setq n 2)" }
    let input := "(car)\n:goto --5\n:q\n"
    (Editor.ofSettings 30 settings).1 = .ok () ∧ ¬ CommandLine.IsNumeral "--5" ∧
      ∃ fault, Ends 30 (Editor.ofSettings 30 settings).2 (lines input) (some fault) ∧
        fault.message? = some "invalid literal for int() with base 10: '--5'" := by
  intro settings input
  have ended : (Editor.ofSettings 30 settings).1 = .ok () := by
    have ok : (Editor.ofSettings 30 settings).1.toOption = some () := by decide +kernel
    cases outcome : (Editor.ofSettings 30 settings).1 with
    | ok => rfl
    | error cause => rw [outcome] at ok; nomatch ok
  have built : Editor.ofSettings 30 settings = (.ok (), (Editor.ofSettings 30 settings).2) :=
    Prod.ext ended rfl
  obtain ⟨ends, -, numerals⟩ := run_fault_iff 30 settings built
  have told : (run 30 settings input).fault.bind Fault.message? =
      some "invalid literal for int() with base 10: '--5'" := by decide +kernel
  obtain ⟨fault, found, message⟩ := Option.bind_eq_some_iff.mp told
  refine ⟨ended, fun numeral => ?_, fault, (ends input (some fault)).mp found, message⟩
  obtain ⟨offset, read⟩ := (numerals "--5").mpr numeral
  have isSome : (CommandLine.readPosition "--5").toOption.isSome = true := by rw [read]; rfl
  exact absurd isSome (by decide)

/-- A raised two looks like a position, and a session that goes there ends by a fault. -/
theorem run_fault_figure :
    let settings : Settings := { scratch := some "abcdef" }
    (Editor.ofSettings 30 settings).1.toOption = some () ∧ CommandLine.isPosition "²" = true ∧
      (run 30 settings ":goto ²\n").fault.bind Fault.message? =
        some "invalid literal for int() with base 10: '²'" := by
  decide +kernel

end Console

end BufferLisp
