import BufferLisp.Proofs.Eval.Depth
import BufferLisp.Proofs.Eval.Requests

/-!
# Hosts that answer alike

A program knows its host only by the replies that it gets.  Let two hosts be related in such a way
that a request gets the same reply from both and leaves them related (`Host.Simulation`).  Then a
program cannot tell them apart: it has the same result on both, leaves the same scope, and sends the
same requests.

The relation need not stand every request, only those of a given kind.  What is said then is about
the evaluations that send no others, and whether an evaluation does is seen from the record of its
run on the first host (`eval_tracked`).  Where a run has sent another request, nothing more is said
about what follows; it is enough that the request stays in the record.
-/

set_option autoImplicit false

namespace BufferLisp

variable {σ τ α β : Type} [Host σ] [Host τ]

/-- A relation between hosts that requests of a kind respect: the replies are the same and the hosts
stay related. -/
structure Host.Simulation (σ τ : Type) [Host σ] [Host τ] (usual : Request → Prop) where
  rel : σ → τ → Prop
  reply : ∀ {request : Request} {left : σ} {right : τ}, usual request → rel left right →
    (Host.handle request left).1 = (Host.handle request right).1
  keeps : ∀ {request : Request} {left : σ} {right : τ}, usual request → rel left right →
    rel (Host.handle request left).2 (Host.handle request right).2

namespace EvalM

variable {usual : Request → Prop} {S : Host.Simulation σ τ usual}

/-- A run on the second host against a recorded run on the first: it ends alike after the same
requests, or the record holds a request that is not of the usual kind. -/
inductive Tracked (S : Host.Simulation σ τ usual) (log : List Request) (start : τ) :
    Except Stop α × World (Logged σ) → Except Stop α × World τ → Prop where
  | along (sent : List Request) (result : Except Stop α) (scope : Chain) {left : σ}
      (all : ∀ request ∈ sent, usual request) (related : S.rel left (Host.handleAll start sent)) :
      Tracked S log start (result, ⟨scope, ⟨left, log ++ sent⟩⟩)
        (result, ⟨scope, Host.handleAll start sent⟩)
  | astray (sent : List Request) {left : Except Stop α × World (Logged σ)}
      {right : Except Stop α × World τ} (begins : log ++ sent <+: left.2.host.requests)
      (unusual : ∃ request ∈ sent, ¬ usual request) : Tracked S log start left right

/-- An evaluation on the second host follows one on the first from related hosts. -/
structure Tracks (S : Host.Simulation σ τ usual) (left : EvalM (Logged σ) α) (right : EvalM τ α) :
    Prop where
  does : left.Does Session.anyName
  runs : ∀ (scope : Chain) {first : σ} {second : τ} (log : List Request), S.rel first second →
    Tracked S log second (left.runOn ⟨scope, ⟨first, log⟩⟩) (right.runOn ⟨scope, second⟩)

namespace Tracks

/-- An evaluation that sends nothing does the same on every host. -/
theorem of_silent {left : EvalM (Logged σ) α} {right : EvalM τ α}
    (does : left.Does Session.anyName)
    (silent : ∀ scope, ∃ (result : Except Stop α) (after : Chain),
      (∀ host, left.runOn ⟨scope, host⟩ = (result, ⟨after, host⟩)) ∧
      ∀ host, right.runOn ⟨scope, host⟩ = (result, ⟨after, host⟩)) : Tracks S left right where
  does := does
  runs scope first second log related := by
    obtain ⟨result, after, leftRuns, rightRuns⟩ := silent scope
    rw [leftRuns, rightRuns]
    have tracked : Tracked S log second (result, ⟨after, ⟨first, log ++ []⟩⟩)
        (result, ⟨after, second⟩) := .along [] result after nofun related
    rwa [List.append_nil] at tracked

theorem ask (request : Request) :
    Tracks S (EvalM.ask request : EvalM (Logged σ) _) (EvalM.ask request) where
  does := .ask request
  runs scope first second log related := by
    by_cases member : usual request
    · rw [runOn_ask, runOn_ask]
      dsimp only
      rw [← S.reply member related]
      exact .along [request] _ scope (by simpa using member) (S.keeps member related)
    · exact .astray [request] (List.prefix_refl _) ⟨request, by simp, member⟩

theorem bind {left : EvalM (Logged σ) α} {right : EvalM τ α}
    {nextLeft : α → EvalM (Logged σ) β} {nextRight : α → EvalM τ β} (first : Tracks S left right)
    (second : ∀ a, Tracks S (nextLeft a) (nextRight a)) :
    Tracks S (left >>= nextLeft) (right >>= nextRight) where
  does := .bind first.does fun a => (second a).does
  runs scope host start log related := by
    have tracked := first.runs scope log related
    rw [runOn_bind, runOn_bind]
    generalize left.runOn _ = ranLeft at tracked ⊢
    generalize right.runOn _ = ranRight at tracked ⊢
    cases tracked with
    | along sent result between all related =>
        cases result with
        | error stop => exact .along sent _ between all related
        | ok a =>
            have later := (second a).runs between (log ++ sent) related
            dsimp only
            generalize (nextLeft a).runOn _ = ranLeft at later ⊢
            generalize (nextRight a).runOn _ = ranRight at later ⊢
            cases later with
            | along more result after allMore related =>
                rw [← Host.handleAll_append] at related ⊢
                rw [List.append_assoc]
                refine .along (sent ++ more) result after ?_ related
                intro request member
                rcases List.mem_append.mp member with member | member
                · exact all request member
                · exact allMore request member
            | astray more begins unusual =>
                rw [List.append_assoc] at begins
                obtain ⟨request, member, other⟩ := unusual
                exact .astray (sent ++ more) begins ⟨request, List.mem_append_right _ member, other⟩
    | astray sent begins unusual =>
        refine .astray sent (begins.trans ?_) unusual
        -- Whatever follows, the record only grows.
        rcases ranLeft with ⟨stop | a, after⟩
        · exact List.prefix_refl _
        · exact ((second a).does after).host.requests

theorem inFrame (frame : Frame) {left : EvalM (Logged σ) α} {right : EvalM τ α}
    (inside : Tracks S left right) :
    Tracks S (EvalM.inFrame frame left) (EvalM.inFrame frame right) where
  does := .inFrame frame inside.does
  runs scope first second log related := by
    have tracked := inside.runs (scope.enter frame) log related
    rw [runOn_inFrame, runOn_inFrame]
    dsimp only
    generalize left.runOn _ = ranLeft at tracked ⊢
    generalize right.runOn _ = ranRight at tracked ⊢
    cases tracked with
    | along sent result after all related => exact .along sent result after.leave all related
    | astray sent begins unusual => exact .astray sent begins unusual

end Tracks

/-- Following is respected by the ways of building an evaluation. -/
def tracking (S : Host.Simulation σ τ usual) : EvalM.Congruence (Logged σ) τ where
  rel := Tracks S
  pure a := .of_silent (.pure a) fun scope => ⟨.ok a, scope, fun _ => rfl, fun _ => rfl⟩
  stop cause := .of_silent (.stop cause) fun scope =>
    ⟨.error cause, scope, fun _ => rfl, fun _ => rfl⟩
  bind := .bind
  lookup name := .of_silent (.lookup name) fun scope =>
    ⟨(scope.lookup name).mapError .error, scope, fun _ => runOn_lookup _ name,
      fun _ => runOn_lookup _ name⟩
  assign name value := .of_silent (.assign trivial value) fun scope =>
    ⟨.ok (), scope.set name value, fun _ => rfl, fun _ => rfl⟩
  ask := .ask
  inFrame := .inFrame

/-- If the record shows usual requests only then the run on the second host ends alike. -/
theorem Tracked.eq_of_usual {log sent : List Request} {start : τ}
    {left : Except Stop α × World (Logged σ)} {right : Except Stop α × World τ}
    (tracked : Tracked S log start left right) (record : left.2.host.requests = log ++ sent)
    (all : ∀ request ∈ sent, usual request) :
    right = (left.1, ⟨left.2.scope, Host.handleAll start sent⟩) ∧
      S.rel left.2.host.host (Host.handleAll start sent) := by
  cases tracked with
  | along _ result scope _ related =>
      obtain rfl := List.append_cancel_left record
      exact ⟨rfl, related⟩
  | astray _ begins unusual =>
      rw [record] at begins
      obtain ⟨request, member, other⟩ := unusual
      have member := ((List.prefix_append_right_inj log).mp begins).subset member
      exact absurd (all request member) other

end EvalM

/-- **An evaluation that sends only requests of the usual kind does the same on a related host.** -/
theorem eval_tracked {usual : Request → Prop} (S : Host.Simulation σ τ usual) (limit : Nat)
    (e : Value) (scope : Chain) {first : σ} {second : τ} (related : S.rel first second)
    (log : List Request) {sent : List Request}
    (record : ((eval limit e).runOn ⟨scope, (⟨first, log⟩ : Logged σ)⟩).2.host.requests = log ++ sent)
    (all : ∀ request ∈ sent, usual request) :
    let recorded := (eval limit e).runOn ⟨scope, (⟨first, log⟩ : Logged σ)⟩
    (eval limit e).runOn ⟨scope, second⟩ =
        (recorded.1, ⟨recorded.2.scope, Host.handleAll second sent⟩) ∧
      S.rel recorded.2.host.host (Host.handleAll second sent) := by
  have tracks : EvalM.Tracks S (eval limit e) (eval limit e) := (EvalM.tracking S).eval limit e
  exact (tracks.runs scope log related).eq_of_usual record all

end BufferLisp
