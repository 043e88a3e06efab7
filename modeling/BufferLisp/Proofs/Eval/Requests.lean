import BufferLisp.Host.Recorder
import BufferLisp.Proofs.Eval.Congruence

/-!
# The requests of an evaluation

An evaluation run on a logged host leaves a record of the requests that it has sent.  Apart from the
record it does what it does on the host itself, and the host has come to its state by these requests
and nothing else (`EvalM.Mirrors`).  So `EvalM.sent` tells step by step how an evaluation has
changed its host, also when it stops early.
-/

set_option autoImplicit false

namespace BufferLisp

variable {σ α β : Type} [Host σ]

/-- The host after requests, one after the other. -/
def Host.handleAll (host : σ) (requests : List Request) : σ :=
  requests.foldl (fun host request => (Host.handle request host).2) host

theorem Host.handleAll_append (host : σ) (earlier later : List Request) :
    Host.handleAll host (earlier ++ later) = Host.handleAll (Host.handleAll host earlier) later :=
  List.foldl_append

/-- The requests that an evaluation sends from a world on. -/
def EvalM.sent (world : World σ) (action : EvalM (Logged σ) α) : List Request :=
  (action.runOn ⟨world.scope, ⟨world.host, []⟩⟩).2.host.requests

/-- A run on a logged host ends as one on the host itself does, and has added to the record the
requests that lead to where the host has come. -/
inductive EvalM.Mirrored (host : σ) (log : List Request) :
    Except Stop α × World (Logged σ) → Except Stop α × World σ → Prop where
  | intro (result : Except Stop α) (scope : Chain) (requests : List Request) :
      Mirrored host log
        (result, ⟨scope, ⟨Host.handleAll host requests, log ++ requests⟩⟩)
        (result, ⟨scope, Host.handleAll host requests⟩)

/-- An evaluation on a logged host does what another does on the host itself. -/
def EvalM.Mirrors (logged : EvalM (Logged σ) α) (plain : EvalM σ α) : Prop :=
  ∀ (scope : Chain) (host : σ) (log : List Request),
    EvalM.Mirrored host log (logged.runOn ⟨scope, ⟨host, log⟩⟩) (plain.runOn ⟨scope, host⟩)

namespace EvalM.Mirrors

/-- An evaluation that sends nothing mirrors its like. -/
theorem of_silent {logged : EvalM (Logged σ) α} {plain : EvalM σ α}
    (silent : ∀ scope, ∃ (result : Except Stop α) (after : Chain),
      (∀ host, logged.runOn ⟨scope, host⟩ = (result, ⟨after, host⟩)) ∧
      ∀ host, plain.runOn ⟨scope, host⟩ = (result, ⟨after, host⟩)) : Mirrors logged plain := by
  intro scope host log
  obtain ⟨result, after, loggedRuns, plainRuns⟩ := silent scope
  rw [loggedRuns, plainRuns]
  have mirrored : Mirrored host log (result, ⟨after, ⟨host, log ++ []⟩⟩) (result, ⟨after, host⟩) :=
    .intro result after []
  rwa [List.append_nil] at mirrored

theorem ask (request : Request) :
    Mirrors (EvalM.ask request : EvalM (Logged σ) _) (EvalM.ask request) :=
  fun scope _ _ => .intro _ scope [request]

theorem bind {logged : EvalM (Logged σ) α} {plain : EvalM σ α}
    {nextLogged : α → EvalM (Logged σ) β} {nextPlain : α → EvalM σ β}
    (first : Mirrors logged plain) (second : ∀ a, Mirrors (nextLogged a) (nextPlain a)) :
    Mirrors (logged >>= nextLogged) (plain >>= nextPlain) := by
  intro scope host log
  have mirrored := first scope host log
  rw [runOn_bind, runOn_bind]
  generalize logged.runOn _ = ranLogged at mirrored ⊢
  generalize plain.runOn _ = ranPlain at mirrored ⊢
  obtain ⟨result, between, requests⟩ := mirrored
  cases result with
  | error stop => exact .intro _ between requests
  | ok a =>
      dsimp only
      have later := second a between (Host.handleAll host requests) (log ++ requests)
      generalize (nextLogged a).runOn _ = ranLogged at later ⊢
      generalize (nextPlain a).runOn _ = ranPlain at later ⊢
      obtain ⟨result, after, more⟩ := later
      rw [← Host.handleAll_append, List.append_assoc]
      exact .intro result after (requests ++ more)

theorem inFrame (frame : Frame) {logged : EvalM (Logged σ) α} {plain : EvalM σ α}
    (inside : Mirrors logged plain) :
    Mirrors (EvalM.inFrame frame logged) (EvalM.inFrame frame plain) := by
  intro scope host log
  have mirrored := inside (scope.enter frame) host log
  rw [runOn_inFrame, runOn_inFrame]
  dsimp only
  generalize logged.runOn _ = ranLogged at mirrored ⊢
  generalize plain.runOn _ = ranPlain at mirrored ⊢
  obtain ⟨result, after, requests⟩ := mirrored
  exact .intro result after.leave requests

/-- A result may be reworded. -/
theorem reword {γ : Type} (wording : Except Stop α → Except Stop γ)
    {logged : EvalM (Logged σ) α} {plain : EvalM σ α} {loggedReworded : EvalM (Logged σ) γ}
    {plainReworded : EvalM σ γ} (mirrors : Mirrors logged plain)
    (loggedRuns : ∀ world, loggedReworded.runOn world =
      (wording (logged.runOn world).1, (logged.runOn world).2))
    (plainRuns : ∀ world, plainReworded.runOn world =
      (wording (plain.runOn world).1, (plain.runOn world).2)) :
    Mirrors loggedReworded plainReworded := by
  intro scope host log
  have mirrored := mirrors scope host log
  rw [loggedRuns, plainRuns]
  generalize logged.runOn _ = ranLogged at mirrored ⊢
  generalize plain.runOn _ = ranPlain at mirrored ⊢
  obtain ⟨result, after, requests⟩ := mirrored
  exact .intro (wording result) after requests

/-- The host has got where the recorded requests lead. -/
theorem host_eq {logged : EvalM (Logged σ) α} {plain : EvalM σ α} (mirrors : Mirrors logged plain)
    (world : World σ) :
    (plain.runOn world).2.host = Host.handleAll world.host (EvalM.sent world logged) := by
  have mirrored := mirrors world.scope world.host []
  rw [EvalM.sent]
  change EvalM.Mirrored _ _ _ (plain.runOn world) at mirrored
  generalize logged.runOn _ = ranLogged at mirrored ⊢
  generalize plain.runOn _ = ranPlain at mirrored ⊢
  obtain ⟨result, after, requests⟩ := mirrored
  rfl

end EvalM.Mirrors

/-- Mirroring is respected by the ways of building an evaluation. -/
def EvalM.mirroring (σ : Type) [Host σ] : EvalM.Congruence (Logged σ) σ where
  rel := Mirrors
  pure a := .of_silent fun scope => ⟨.ok a, scope, fun _ => rfl, fun _ => rfl⟩
  stop cause := .of_silent fun scope => ⟨.error cause, scope, fun _ => rfl, fun _ => rfl⟩
  bind := .bind
  lookup name := .of_silent fun scope =>
    ⟨(scope.lookup name).mapError .error, scope, fun _ => runOn_lookup _ name,
      fun _ => runOn_lookup _ name⟩
  assign name value := .of_silent fun scope =>
    ⟨.ok (), scope.set name value, fun _ => rfl, fun _ => rfl⟩
  ask := .ask
  inFrame := .inFrame

/-! ## Requests of a session -/

namespace Session

open EvalM

theorem evalSource_mirrors (limit : Nat) (source : String) :
    Mirrors (evalSource limit source : EvalM (Logged σ) Value) (evalSource limit source) :=
  (mirroring σ).evalSource limit source

theorem evalToText_mirrors (limit : Nat) (source : String) :
    Mirrors (evalToText limit source : EvalM (Logged σ) String) (evalToText limit source) :=
  (evalSource_mirrors limit source).reword answerText (fun _ => rfl) fun _ => rfl

theorem evalAndEcho_mirrors (limit : Nat) (source : String) :
    Mirrors (evalAndEcho limit source : EvalM (Logged σ) String) (evalAndEcho limit source) :=
  .bind (evalToText_mirrors limit source) fun text =>
    .bind (.ask (.message text)) fun _ => (mirroring σ).pure text

theorem evalLast_mirrors (limit : Nat) (text : String) (cursor : Int) :
    Mirrors (evalLast limit text cursor : EvalM (Logged σ) String)
      (evalLast limit text cursor) := by
  have nothing : Mirrors (evalLast.echoNothing : EvalM (Logged σ) String) evalLast.echoNothing :=
    .bind (.ask _) fun _ => (mirroring σ).pure _
  rw [evalLast, evalLast]
  cases lastExpression? text cursor with
  | none => exact nothing
  | some source =>
      dsimp only
      split
      · exact nothing
      · exact evalAndEcho_mirrors limit source

end Session

end BufferLisp
