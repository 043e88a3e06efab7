import BufferLisp.Eval.InTree
import BufferLisp.Host.Recorder
import BufferLisp.Proofs.Eval.Congruence

/-!
# Answers do not depend on the depth limit

A greater depth limit does not change an evaluation that ends within the smaller one.  An evaluation
that exhausts the smaller limit has done the beginning of what it does with the greater: nothing
inside it takes notice that the depth ran out, so it stops at once, and the requests it has sent are
the first of those that the other one sends.

`EvalM.GoesOn` is this relation between two evaluations.  It is a congruence, so it passes from the
parts of an expression to the expression, and the induction is on the smaller limit.
-/

set_option autoImplicit false

namespace BufferLisp

variable {σ α β : Type} [Host σ]

/-! ## Going on -/

/-- A run ends as another does, or runs out of depth on the way there: the host as it was left then
leads to the other's by requests. -/
inductive EvalM.CutShort (short : Except Stop α × World σ) : Except Stop α × World σ → Prop where
  | same : CutShort short short
  | cut {long : Except Stop α × World σ} (exhausted : short.1 = .error .exhausted)
      (reaches : Host.Reaches short.2.host long.2.host) : CutShort short long

/-- An evaluation does what another does, and goes on where that one runs out of depth. -/
structure EvalM.GoesOn (short long : EvalM σ α) : Prop where
  does : long.Does Session.anyName
  runs : ∀ world, EvalM.CutShort (short.runOn world) (long.runOn world)

namespace EvalM.GoesOn

theorem refl {action : EvalM σ α} (does : action.Does Session.anyName) : GoesOn action action :=
  ⟨does, fun _ => .same⟩

/-- Where there is no depth at all, anything goes on. -/
theorem of_exhausted {long : EvalM σ α} (does : long.Does Session.anyName) :
    GoesOn (throw .exhausted) long :=
  ⟨does, fun world => .cut rfl (does world).host⟩

theorem bind {short long : EvalM σ α} {nextShort nextLong : α → EvalM σ β}
    (first : GoesOn short long) (second : ∀ a, GoesOn (nextShort a) (nextLong a)) :
    GoesOn (short >>= nextShort) (long >>= nextLong) := by
  refine ⟨.bind first.does fun a => (second a).does, ?_⟩
  intro world
  have later : Host.Reaches (long.runOn world).2.host ((long >>= nextLong).runOn world).2.host := by
    rw [runOn_bind]
    rcases long.runOn world with ⟨stop | a, after⟩
    · exact .refl
    · exact ((second a).does after).host
  have runs := first.runs world
  rw [runOn_bind] at later
  rw [runOn_bind, runOn_bind]
  generalize long.runOn world = ranLong at runs later ⊢
  generalize short.runOn world = ranShort at runs ⊢
  rcases ranShort with ⟨stop | a, after⟩
  · -- The first part stops, with both limits or only with the smaller one.
    cases runs with
    | same => exact .same
    | cut exhausted reaches =>
        obtain rfl := Except.error.inj exhausted
        exact .cut rfl (reaches.trans later)
  · cases runs with
    | same => exact (second a).runs after
    | cut exhausted => nomatch exhausted

theorem inFrame (frame : Frame) {short long : EvalM σ α} (inside : GoesOn short long) :
    GoesOn (EvalM.inFrame frame short) (EvalM.inFrame frame long) := by
  refine ⟨.inFrame frame inside.does, ?_⟩
  intro world
  have runs := inside.runs { world with scope := world.scope.enter frame }
  rw [runOn_inFrame, runOn_inFrame]
  generalize short.runOn _ = ranShort at runs ⊢
  generalize long.runOn _ = ranLong at runs ⊢
  cases runs with
  | same => exact .same
  | cut exhausted reaches => exact .cut exhausted reaches

/-- A result may be reworded, if running out of depth stays what it is. -/
theorem reword {γ : Type} (wording : Except Stop α → Except Stop γ)
    (kept : wording (.error .exhausted) = .error .exhausted) {short long : EvalM σ α}
    {shortReworded longReworded : EvalM σ γ} (goesOn : GoesOn short long)
    (shortRuns : ∀ world, shortReworded.runOn world =
      (wording (short.runOn world).1, (short.runOn world).2))
    (longRuns : ∀ world, longReworded.runOn world =
      (wording (long.runOn world).1, (long.runOn world).2)) :
    GoesOn shortReworded longReworded where
  does world := by
    rw [longRuns]
    exact goesOn.does world
  runs world := by
    rw [shortRuns, longRuns]
    have runs := goesOn.runs world
    generalize long.runOn world = ranLong at runs ⊢
    cases runs with
    | same => exact .same
    | cut exhausted reaches => exact .cut (exhausted ▸ kept) reaches

end EvalM.GoesOn

/-- Going on is respected by the ways of building an evaluation. -/
def EvalM.goingOn (σ : Type) [Host σ] : EvalM.Congruence σ σ where
  rel := GoesOn
  pure a := .refl (.pure a)
  stop cause := .refl (.stop cause)
  bind := .bind
  lookup name := .refl (.lookup name)
  assign _ value := .refl (.assign trivial value)
  ask request := .refl (.ask request)
  inFrame := .inFrame

/-- With a greater limit an evaluation goes on. -/
theorem eval_goesOn {limit greater : Nat} (le : limit ≤ greater) (e : Value) :
    EvalM.GoesOn (eval limit e : EvalM σ Value) (eval greater e) := by
  induction limit generalizing greater e with
  | zero => exact .of_exhausted ((eval_does greater e).mono fun _ _ => trivial)
  | succ limit ih =>
      obtain ⟨greater, rfl⟩ := Nat.exists_eq_add_of_lt le
      exact EvalM.Congruence.step (R := EvalM.goingOn σ) (fun part => ih (by omega) part) e

namespace Session

theorem evalSource_goesOn {limit greater : Nat} (le : limit ≤ greater) (source : String) :
    EvalM.GoesOn (evalSource limit source : EvalM σ Value) (evalSource greater source) :=
  .bind (.refl (.ofExcept _)) fun e => eval_goesOn le e

/-- The text of an answer is no way to get hold of an exhausted depth. -/
theorem evalToText_goesOn {limit greater : Nat} (le : limit ≤ greater) (source : String) :
    EvalM.GoesOn (evalToText limit source : EvalM σ String) (evalToText greater source) :=
  (evalSource_goesOn le source).reword answerText rfl (fun _ => rfl) fun _ => rfl

end Session

/-! ## Requests -/

/-- The requests that a logged host has got stay the first in its record. -/
theorem Host.Reaches.requests {before after : Logged σ} (reaches : Host.Reaches before after) :
    before.requests <+: after.requests := by
  induction reaches with
  | refl => exact List.prefix_refl _
  | tail _ step ih =>
      obtain ⟨request, rfl⟩ := step
      exact ih.trans (List.prefix_append _ [request])

namespace EvalM.CutShort

theorem eq_of_ne {short long : Except Stop α × World σ} (runs : CutShort short long)
    (ends : short.1 ≠ .error .exhausted) : long = short := by
  cases runs with
  | same => rfl
  | cut exhausted => exact absurd exhausted ends

theorem requests {short long : Except Stop α × World (Logged σ)} (runs : CutShort short long) :
    short.2.host.requests <+: long.2.host.requests := by
  cases runs with
  | same => exact List.prefix_refl _
  | cut _ reaches => exact reaches.requests

end EvalM.CutShort

/-! ## Evaluation in a tree, and its text -/

/-- **The answer of an evaluation does not depend on the depth limit.**  If an evaluation does not
exhaust its limit then every greater limit gives the same result, leaves the same bindings in every
frame, and sends the same requests to the same effect.  If it exhausts its limit then the requests
it has sent are the first of those that it sends with a greater limit.  The same holds of a text
that is evaluated for its answer; there, too, running out of depth is never turned into words. -/
theorem Tree.eval_limit_mono {limit greater : Nat} (le : limit ≤ greater) (tree : Tree)
    (host : Logged σ) (i : Nat) (e : Value) (world : World (Logged σ)) (source : String) :
    ((tree.eval limit host i e).1 ≠ .error .exhausted →
      tree.eval greater host i e = tree.eval limit host i e) ∧
    ((tree.eval limit host i e).1 = .error .exhausted →
      (tree.eval limit host i e).2.2.requests <+: (tree.eval greater host i e).2.2.requests) ∧
    (((Session.evalToText limit source).runOn world).1 ≠ .error .exhausted →
      (Session.evalToText greater source).runOn world =
        (Session.evalToText limit source).runOn world) ∧
    (((Session.evalSource limit source).runOn world).1 = .error .exhausted →
      (Session.evalToText limit source).runOn world =
          (.error .exhausted, ((Session.evalSource limit source).runOn world).2) ∧
        ((Session.evalToText limit source).runOn world).2.host.requests <+:
          ((Session.evalToText greater source).runOn world).2.host.requests) := by
  have runs := (eval_goesOn le e).runs ⟨tree.chain i, host⟩
  have answers := (Session.evalToText_goesOn le source).runs world
  refine ⟨fun ends => ?_, fun _ => runs.requests, answers.eq_of_ne, fun exhausted => ⟨?_, ?_⟩⟩
  · rw [Tree.eval, Tree.eval, runs.eq_of_ne ends]
  · change (Session.answerText ((Session.evalSource limit source).runOn world).1, _) = _
    rw [exhausted]
    rfl
  · exact answers.requests

/-- A function that goes to a buffer and calls itself exhausts every limit: with depth for one round
it has sent one request, and that is the first of those that it sends with depth for three. -/
theorem Tree.eval_limit_mono_endless :
    let body : Value :=
      .list [.sym "progn", .list [.sym "switch-to-buffer", .str "x"], .list [.sym "f"]]
    let tree := Tree.root.setAll 0
      [("f", .fn [] body), ("switch-to-buffer", .prim .switchToBuffer)]
    let short := tree.eval 4 (⟨Page.blank, []⟩ : Recorder) 0 (.list [.sym "f"])
    let long := tree.eval 8 (⟨Page.blank, []⟩ : Recorder) 0 (.list [.sym "f"])
    short.1 = .error .exhausted ∧ short.2.2.requests = [.switchBuffer "x"] ∧
      short.2.2.requests <+: long.2.2.requests := by
  intro body tree short long
  have mono := Tree.eval_limit_mono (show 4 ≤ 8 by decide) tree
    (⟨Page.blank, []⟩ : Recorder) 0 (.list [.sym "f"]) ⟨Chain.global, ⟨Page.blank, []⟩⟩ ""
  exact ⟨rfl, rfl, mono.2.1 rfl⟩

end BufferLisp
