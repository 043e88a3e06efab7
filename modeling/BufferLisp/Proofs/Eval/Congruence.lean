import BufferLisp.Proofs.Eval.Effect

/-!
# Relations that evaluation respects

Several facts about evaluation compare two runs of one program: in two scopes, with two depth
limits, or on two hosts.  Each is a relation between evaluations that the ways of building an
evaluation respect.  Such a relation is a *congruence*, and what holds of the parts of an expression
then holds of the expression.

The walk through special forms, primitives and calls is made here once, for every congruence.
`Congruence.step` says that one step relates two evaluations if the evaluations of the parts are
related, and `Congruence.eval` follows by induction on the depth limit.
-/

set_option autoImplicit false

namespace BufferLisp

variable {σ τ : Type} [Host σ] [Host τ]

/-- A relation between evaluations on two hosts that is respected by the ways of building one. -/
structure EvalM.Congruence (σ τ : Type) [Host σ] [Host τ] where
  rel : {α : Type} → EvalM σ α → EvalM τ α → Prop
  pure : ∀ {α : Type} (a : α), rel (Pure.pure a) (Pure.pure a)
  stop : ∀ {α : Type} (cause : Stop), rel (throw cause : EvalM σ α) (throw cause)
  bind : ∀ {α β : Type} {left : EvalM σ α} {right : EvalM τ α} {nextLeft : α → EvalM σ β}
    {nextRight : α → EvalM τ β}, rel left right → (∀ a, rel (nextLeft a) (nextRight a)) →
      rel (left >>= nextLeft) (right >>= nextRight)
  lookup : ∀ name, rel (EvalM.lookup name) (EvalM.lookup name)
  assign : ∀ name value, rel (EvalM.assign name value) (EvalM.assign name value)
  ask : ∀ request, rel (EvalM.ask request) (EvalM.ask request)
  inFrame : ∀ {α : Type} (frame : Frame) {left : EvalM σ α} {right : EvalM τ α}, rel left right →
    rel (EvalM.inFrame frame left) (EvalM.inFrame frame right)

namespace EvalM.Congruence

open SpecialForm

variable (R : EvalM.Congruence σ τ)

theorem fail {α : Type} (cause : LispError) :
    R.rel (EvalM.fail cause : EvalM σ α) (EvalM.fail cause) :=
  R.stop _

theorem ofExcept {α : Type} (result : Except LispError α) :
    R.rel (EvalM.ofExcept result) (EvalM.ofExcept result) := by
  cases result with
  | ok a => exact R.pure a
  | error cause => exact R.fail cause

/-- What a primitive does is decided by its arguments and the reply to its request. -/
theorem call (p : Primitive) (args : List Value) : R.rel (p.call args) (p.call args) := by
  refine R.bind (R.ofExcept _) ?_
  intro plan
  cases plan with
  | done value => exact R.pure value
  | ask request answer =>
      refine R.bind (R.ask request) ?_
      intro reply
      cases answer reply with
      | some value => exact R.pure value
      | none => exact R.stop _

variable {R} {left : Value → EvalM σ Value} {right : Value → EvalM τ Value}

/-! ## Special forms -/

theorem sequence (each : ∀ e, R.rel (left e) (right e)) (value : Value) (parts : List Value) :
    R.rel (SpecialForm.sequence left value parts) (SpecialForm.sequence right value parts) := by
  induction parts generalizing value with
  | nil => exact R.pure value
  | cons e rest ih => exact R.bind (each e) ih

theorem assignPairs (each : ∀ e, R.rel (left e) (right e)) (value : Value) (tail : List Value) :
    R.rel (SpecialForm.assignPairs left value tail) (SpecialForm.assignPairs right value tail) := by
  fun_induction SpecialForm.assignPairs left value tail with
  | case1 value => exact R.pure value
  | case2 _ name e rest ih =>
      refine R.bind (each e) ?_
      intro next
      exact R.bind (R.assign name next) fun _ => ih next
  | case3 => exact R.fail _
  | case4 value target rest noPair noValue =>
      rw [SpecialForm.assignPairs.eq_4 right value target rest noPair noValue]
      exact R.fail _

theorem choose (each : ∀ e, R.rel (left e) (right e)) (tail : List Value) :
    R.rel (SpecialForm.choose left tail) (SpecialForm.choose right tail) := by
  rcases tail with _ | ⟨test, _ | ⟨yes, rest⟩⟩
  · exact R.fail _
  · exact R.fail _
  · refine R.bind (each test) ?_
    intro condition
    split
    · exact each yes
    · rcases rest with _ | ⟨no, rest⟩
      · exact R.pure _
      · exact each no

theorem define (tail : List Value) :
    R.rel (SpecialForm.define tail) (SpecialForm.define tail) := by
  unfold SpecialForm.define
  split
  · split
    · exact R.fail _
    · exact R.bind (R.ofExcept _) fun names => R.bind (R.assign _ _) fun _ => R.pure _
  · exact R.fail _
  · exact R.fail _

theorem binding (each : ∀ e, R.rel (left e) (right e)) (written : Value) :
    R.rel (SpecialForm.binding left written) (SpecialForm.binding right written) := by
  unfold SpecialForm.binding
  split
  · exact R.pure _
  · exact R.pure _
  · exact R.bind (each _) fun _ => R.pure _
  · exact R.fail _

theorem bindings (each : ∀ e, R.rel (left e) (right e)) (written : List Value) :
    R.rel (SpecialForm.bindings left written) (SpecialForm.bindings right written) := by
  induction written with
  | nil => exact R.pure _
  | cons b rest ih => exact R.bind (binding each b) fun _ => R.bind ih fun _ => R.pure _

theorem bindLocally (each : ∀ e, R.rel (left e) (right e)) (tail : List Value) :
    R.rel (SpecialForm.bindLocally left tail) (SpecialForm.bindLocally right tail) := by
  cases tail with
  | nil => exact R.fail _
  | cons head body =>
      rw [SpecialForm.bindLocally, SpecialForm.bindLocally]
      cases listItems? head with
      | none => exact R.fail _
      | some items =>
          refine R.bind (bindings each items) ?_
          intro pairs
          exact R.inFrame _ (sequence each .nil body)

theorem form (each : ∀ e, R.rel (left e) (right e)) (form : SpecialForm) (tail : List Value) :
    R.rel (form.eval left tail) (form.eval right tail) := by
  cases form with
  | quote =>
      cases tail with
      | nil => exact R.fail _
      | cons v rest => exact R.pure v
  | setq => exact assignPairs each .nil tail
  | ifElse => exact choose each tail
  | defun => exact define tail
  | progn => exact sequence each .nil tail
  | letIn => exact bindLocally each tail
  | interactive => exact R.pure _

/-! ## Evaluation -/

theorem evalAll (each : ∀ e, R.rel (left e) (right e)) (parts : List Value) :
    R.rel (BufferLisp.evalAll left parts) (BufferLisp.evalAll right parts) := by
  induction parts with
  | nil => exact R.pure _
  | cons e rest ih => exact R.bind (each e) fun _ => R.bind ih fun _ => R.pure _

theorem applyTo (each : ∀ e, R.rel (left e) (right e)) (shown head : Value) (args : List Value) :
    R.rel (BufferLisp.applyTo left shown head args) (BufferLisp.applyTo right shown head args) := by
  cases head with
  | prim p => exact R.call p args
  | fn params body => exact R.inFrame _ (each body)
  | _ => exact R.fail _

/-- **One step relates two evaluations if the evaluations of the parts are related.** -/
theorem step (each : ∀ e, R.rel (left e) (right e)) (e : Value) :
    R.rel (BufferLisp.step left e) (BufferLisp.step right e) := by
  cases e with
  | sym name => exact R.lookup name
  | list items =>
      rcases items with _ | ⟨head, tail⟩
      · exact R.pure _
      · rw [BufferLisp.step, BufferLisp.step]
        cases ofHead? head with
        | some special => exact form each special tail
        | none =>
            refine R.bind (each head) ?_
            intro callee
            exact R.bind (evalAll each tail) fun args => applyTo each head callee args
  | _ => exact R.pure _

/-- An expression is related to itself, under one depth limit. -/
theorem eval (R : EvalM.Congruence σ τ) (limit : Nat) (e : Value) :
    R.rel (BufferLisp.eval limit e) (BufferLisp.eval limit e) := by
  induction limit generalizing e with
  | zero => exact R.stop _
  | succ limit ih => exact step ih e

theorem evalSource (R : EvalM.Congruence σ τ) (limit : Nat) (source : String) :
    R.rel (Session.evalSource limit source) (Session.evalSource limit source) :=
  R.bind (R.ofExcept _) fun e => R.eval limit e

end EvalM.Congruence

end BufferLisp
