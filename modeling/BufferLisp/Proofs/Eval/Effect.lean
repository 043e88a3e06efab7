import BufferLisp.Session
import Mathlib.Logic.Relation

/-!
# What an evaluation can do to its world

An evaluation changes three things at most.  In the current frame it binds names, and only names
that its expression *assigns*: targets of a `setq` and names of a `defun` that are written in it.
The frames outside the current one stay as they are, since a function body and the body of a `let`
run in a frame of their own that is left in the end.  The host changes by requests, one after the
other.

`Effect` puts the three together and `eval_effect` says that every evaluation has such an effect,
however it ends.  The expressions that a function call runs come from the function's body and not
from the call, so the proof goes by induction on the depth limit: what a function body assigns stays
in the frame of the call.
-/

set_option autoImplicit false

namespace BufferLisp

variable {σ α β : Type}

/-! ## Names that an expression assigns -/

/-- A name that is written in an expression, at any depth, as a target of a `setq` or as the name
of a `defun`. -/
inductive Value.Assigns : Value → String → Prop where
  | setq {name : String} {tail : List Value} (pair : Nat)
      (target : tail[2 * pair]? = some (.sym name)) :
      Assigns (.list (.sym SpecialForm.setq.name :: tail)) name
  | defun {name : String} {rest : List Value} :
      Assigns (.list (.sym SpecialForm.defun.name :: .sym name :: rest)) name
  | within {part : Value} {items : List Value} {name : String} (member : part ∈ items)
      (assigned : Assigns part name) : Assigns (.list items) name

/-- What an element of a list assigns, the list assigns. -/
theorem Value.Assigns.of_mem_items {part whole : Value} {name : String}
    (member : part ∈ whole.items) (assigned : part.Assigns name) : whole.Assigns name := by
  cases whole with
  | list items => exact .within member assigned
  | _ => nomatch member

/-! ## Requests one after the other -/

/-- One request leads from a host state to another. -/
def Host.Step [Host σ] (before after : σ) : Prop :=
  ∃ request, after = (Host.handle request before).2

/-- Some requests lead from a host state to another. -/
abbrev Host.Reaches [Host σ] : σ → σ → Prop :=
  Relation.ReflTransGen Host.Step

/-- What no single request breaks, no number of requests breaks. -/
theorem Host.Reaches.keeps [Host σ] {P : σ → Prop}
    (kept : ∀ request host, P host → P (Host.handle request host).2) {before after : σ}
    (reaches : Host.Reaches before after) (holds : P before) : P after := by
  induction reaches with
  | refl => exact holds
  | tail _ step ih =>
      obtain ⟨request, rfl⟩ := step
      exact kept request _ ih

/-! ## Effects -/

/-- What may have changed between two worlds: bindings of the target names in the current frame,
and the host by requests. -/
structure Effect [Host σ] (targets : String → Prop) (before after : World σ) : Prop where
  outer : after.scope.outer = before.scope.outer
  current : ∀ name, ¬ targets name →
    after.scope.current.get? name = before.scope.current.get? name
  host : Host.Reaches before.host after.host

namespace Effect

variable [Host σ] {targets : String → Prop}

theorem refl (world : World σ) : Effect targets world world :=
  ⟨rfl, fun _ _ => rfl, .refl⟩

theorem trans {first second third : World σ} (earlier : Effect targets first second)
    (later : Effect targets second third) : Effect targets first third where
  outer := later.outer.trans earlier.outer
  current name free := (later.current name free).trans (earlier.current name free)
  host := earlier.host.trans later.host

theorem mono {more : String → Prop} (subset : ∀ name, targets name → more name)
    {before after : World σ} (effect : Effect targets before after) : Effect more before after where
  outer := effect.outer
  current name free := effect.current name fun target => free (subset name target)
  host := effect.host

/-- Binding a name is an effect on that name alone. -/
theorem assign {name : String} (target : targets name) (world : World σ) (value : Value) :
    Effect targets world { world with scope := world.scope.set name value } where
  outer := rfl
  current other free := by
    have different : other ≠ name := fun same => free (same ▸ target)
    exact Frame.get?_set_of_ne world.scope.current value different
  host := .refl

/-- A request is an effect on the host alone. -/
theorem ask (world : World σ) (request : Request) :
    Effect targets world { world with host := (Host.handle request world.host).2 } where
  outer := rfl
  current _ _ := rfl
  host := .single ⟨request, rfl⟩

/-- Leaving a frame that was entered gives back the chain from before. -/
theorem scope_leave {inner : String → Prop} (world : World σ) {after : World σ} {frame : Frame}
    (effect : Effect inner { world with scope := world.scope.enter frame } after) :
    after.scope.leave = world.scope := by
  have outer : after.scope.outer = world.scope.frames := effect.outer
  rw [Chain.leave, outer]
  rfl

/-- What happens inside a new frame leaves no trace in the scope once that frame is left. -/
theorem leave {inner : String → Prop} {world after : World σ} {frame : Frame}
    (effect : Effect inner { world with scope := world.scope.enter frame } after) :
    Effect targets world { after with scope := after.scope.leave } :=
  ⟨congrArg Chain.outer (effect.scope_leave world), fun name _ => by rw [effect.scope_leave world],
    effect.host⟩

end Effect

/-! ## Effects of the ways of building an evaluation -/

/-- Every run of the evaluation has an effect on the target names only. -/
def EvalM.Does [Host σ] (targets : String → Prop) (action : EvalM σ α) : Prop :=
  ∀ world, Effect targets world (action.runOn world).2

namespace EvalM.Does

variable [Host σ] {targets : String → Prop}

theorem mono {more : String → Prop} (subset : ∀ name, targets name → more name)
    {action : EvalM σ α} (does : Does targets action) : Does more action :=
  fun world => (does world).mono subset

theorem pure (a : α) : Does targets (Pure.pure a : EvalM σ α) :=
  fun world => .refl world

theorem stop (cause : Stop) : Does targets (throw cause : EvalM σ α) :=
  fun world => .refl world

theorem fail (cause : LispError) : Does targets (EvalM.fail cause : EvalM σ α) :=
  fun world => .refl world

theorem ofExcept (result : Except LispError α) :
    Does targets (EvalM.ofExcept result : EvalM σ α) := by
  intro world
  rw [runOn_ofExcept]
  exact .refl world

theorem lookup (name : String) : Does targets (EvalM.lookup name : EvalM σ Value) := by
  intro world
  rw [runOn_lookup]
  exact .refl world

theorem ask (request : Request) : Does targets (EvalM.ask request : EvalM σ request.Reply) :=
  fun world => .ask world request

theorem assign {name : String} (target : targets name) (value : Value) :
    Does targets (EvalM.assign name value : EvalM σ Unit) :=
  fun world => .assign target world value

theorem bind {action : EvalM σ α} {next : α → EvalM σ β} (first : Does targets action)
    (second : ∀ a, Does targets (next a)) : Does targets (action >>= next) := by
  intro world
  have earlier := first world
  rw [runOn_bind]
  rcases ran : action.runOn world with ⟨stop | a, after⟩ <;> rw [ran] at earlier
  · exact earlier
  · exact earlier.trans (second a after)

/-- Whatever is done inside a new frame, nothing is done to the scope outside it. -/
theorem inFrame {inner : String → Prop} (frame : Frame) {action : EvalM σ α}
    (does : Does inner action) : Does targets (EvalM.inFrame frame action) :=
  fun _ => (does _).leave

end EvalM.Does

/-! ## Effects of primitives and special forms -/

/-- A primitive only sends requests. -/
theorem Primitive.call_does [Host σ] {targets : String → Prop} (p : Primitive)
    (args : List Value) : EvalM.Does targets (p.call args : EvalM σ Value) := by
  refine .bind (.ofExcept _) ?_
  intro plan
  cases plan with
  | done value => exact .pure value
  | ask request answer =>
      refine .bind (.ask request) ?_
      intro reply
      cases answer reply with
      | some value => exact .pure value
      | none => exact .stop _

namespace SpecialForm

variable [Host σ] {targets : String → Prop} {ev : Value → EvalM σ Value}

theorem sequence_does {parts : List Value} (each : ∀ e ∈ parts, (ev e).Does targets)
    (value : Value) : (sequence ev value parts).Does targets := by
  induction parts generalizing value with
  | nil => exact .pure value
  | cons e rest ih =>
      refine .bind (each e (by simp)) ?_
      intro next
      exact ih (fun part member => each part (by simp [member])) next

/-- Pairs of a `setq` bind the names at the even places. -/
theorem assignPairs_does {tail : List Value}
    (own : ∀ pair name, tail[2 * pair]? = some (.sym name) → targets name)
    (each : ∀ e ∈ tail, (ev e).Does targets) (value : Value) :
    (assignPairs ev value tail).Does targets := by
  fun_induction assignPairs ev value tail with
  | case1 value => exact .pure value
  | case2 _ name e rest ih =>
      refine .bind (each e (by simp)) ?_
      intro next
      refine .bind (.assign (own 0 name rfl) next) fun _ => ?_
      exact ih next (fun pair other target => own (pair + 1) other target)
        (fun part member => each part (by simp [member]))
  | case3 => exact .fail _
  | case4 => exact .fail _

theorem choose_does {tail : List Value} (each : ∀ e ∈ tail, (ev e).Does targets) :
    (choose ev tail).Does targets := by
  rcases tail with _ | ⟨test, _ | ⟨yes, rest⟩⟩
  · exact .fail _
  · exact .fail _
  · refine .bind (each test (by simp)) ?_
    intro condition
    split
    · exact each yes (by simp)
    · rcases rest with _ | ⟨no, rest⟩
      · exact .pure _
      · exact each no (by simp)

/-- A `defun` binds its name. -/
theorem define_does {tail : List Value}
    (own : ∀ name rest, tail = .sym name :: rest → targets name) :
    (define tail : EvalM σ Value).Does targets := by
  unfold define
  split
  · next name params body =>
    split
    · exact .fail _
    · refine .bind (.ofExcept _) ?_
      intro names
      exact .bind (.assign (own name _ rfl) _) fun _ => .pure _
  · exact .fail _
  · exact .fail _

/-- The expression in a binding is evaluated outside the new frame, so its effect stays. -/
theorem binding_does {written : Value}
    (each : ∀ e ∈ written.items, (ev e).Does targets) : (binding ev written).Does targets := by
  unfold binding
  split
  · exact .pure _
  · exact .pure _
  · exact .bind (each _ (by simp [Value.items])) fun _ => .pure _
  · exact .fail _

theorem bindings_does {written : List Value}
    (each : ∀ b ∈ written, ∀ e ∈ b.items, (ev e).Does targets) :
    (bindings ev written).Does targets := by
  induction written with
  | nil => exact .pure _
  | cons b rest ih =>
      refine .bind (binding_does (each b (by simp))) ?_
      intro pair
      exact .bind (ih fun other member => each other (by simp [member])) fun _ => .pure _

theorem items_of_listItems? {v : Value} {items : List Value} (listed : listItems? v = some items) :
    items = v.items := by
  cases v <;> simp_all [listItems?, Value.items]

/-- The body of a `let` runs in its own frame; only the bindings have an effect outside. -/
theorem bindLocally_does {inner : String → Prop} {tail : List Value}
    (each : ∀ head ∈ tail, ∀ b ∈ head.items, ∀ e ∈ b.items, (ev e).Does targets)
    (body : ∀ e ∈ tail, (ev e).Does inner) : (bindLocally ev tail).Does targets := by
  cases tail with
  | nil => exact .fail _
  | cons head tail =>
      rw [bindLocally]
      cases listed : listItems? head with
      | none => exact .fail _
      | some items =>
          obtain rfl := items_of_listItems? listed
          refine .bind (bindings_does (each head (by simp))) ?_
          intro pairs
          exact .inFrame _ (sequence_does (fun e member => body e (by simp [member])) _)

theorem quoteFirst_does (tail : List Value) :
    (quoteFirst tail : EvalM σ Value).Does targets := by
  cases tail with
  | nil => exact .fail _
  | cons v rest => exact .pure v

/-- The special form of a name has that name. -/
theorem eq_of_ofHead? {head : Value} {form : SpecialForm} (named : ofHead? head = some form) :
    head = .sym form.name := by
  cases head <;> simp only [ofHead?, reduceCtorEq] at named
  next name =>
    have found := List.find?_some named
    rw [eq_of_beq found]

/-- A special form has an effect on the names that it assigns, if its parts have. -/
theorem eval_does (each : ∀ e : Value, (ev e).Does e.Assigns) (form : SpecialForm)
    (tail : List Value) :
    (form.eval ev tail).Does (Value.list (.sym form.name :: tail)).Assigns := by
  have part : ∀ e ∈ tail, (ev e).Does (Value.list (.sym form.name :: tail)).Assigns := by
    intro e member
    exact (each e).mono fun name assigned => .within (by simp [member]) assigned
  cases form with
  | quote => exact quoteFirst_does tail
  | setq => exact assignPairs_does (fun pair name target => .setq pair target) part _
  | ifElse => exact choose_does part
  | defun =>
      apply define_does
      intro name rest written
      subst written
      exact .defun
  | progn => exact sequence_does part _
  | letIn =>
      refine bindLocally_does (fun head inTail b inHead e inBinding => ?_)
        (fun e _ => (each e).mono fun name _ => (trivial : (fun _ => True) name))
      have inForm : head ∈ Value.sym letIn.name :: tail := by simp [inTail]
      refine (each e).mono fun name assigned => .within inForm ?_
      exact .of_mem_items inHead (.of_mem_items inBinding assigned)
  | interactive => exact .pure _

end SpecialForm

/-! ## Effects of evaluation -/

section Evaluation

variable [Host σ] {targets : String → Prop} {ev : Value → EvalM σ Value}

theorem evalAll_does {parts : List Value} (each : ∀ e ∈ parts, (ev e).Does targets) :
    (evalAll ev parts).Does targets := by
  induction parts with
  | nil => exact .pure _
  | cons e rest ih =>
      refine .bind (each e (by simp)) ?_
      intro value
      exact .bind (ih fun part member => each part (by simp [member])) fun _ => .pure _

/-- A call has no effect on the scope of the caller, whatever the body assigns. -/
theorem applyTo_does (each : ∀ e : Value, (ev e).Does e.Assigns) (shown head : Value)
    (args : List Value) : (applyTo ev shown head args).Does targets := by
  cases head with
  | prim p => exact p.call_does args
  | fn params body => exact .inFrame _ (each body)
  | _ => exact .fail _

/-- One step has an effect on the names that the expression assigns, if the evaluations inside it
have. -/
theorem step_does (each : ∀ e : Value, (ev e).Does e.Assigns) (e : Value) :
    (step ev e).Does e.Assigns := by
  cases e with
  | sym name => exact .lookup name
  | list items =>
      rcases items with _ | ⟨head, tail⟩
      · exact .pure _
      · rw [step]
        cases named : SpecialForm.ofHead? head with
        | some form =>
            obtain rfl := SpecialForm.eq_of_ofHead? named
            exact SpecialForm.eval_does each form tail
        | none =>
            have part : ∀ e ∈ head :: tail, (ev e).Does (Value.list (head :: tail)).Assigns :=
              fun e member => (each e).mono fun name assigned => .within member assigned
            refine .bind (part head (by simp)) ?_
            intro callee
            refine .bind (evalAll_does fun e member => part e (by simp [member])) ?_
            intro args
            exact applyTo_does each head callee args
  | _ => exact .pure _

end Evaluation

theorem eval_does [Host σ] (limit : Nat) (e : Value) :
    (eval limit e : EvalM σ Value).Does e.Assigns := by
  induction limit generalizing e with
  | zero => exact .stop _
  | succ limit ih => exact step_does ih e

/-- **An evaluation binds names in the current frame that its expression assigns, and sends
requests; it does nothing else to its world.** -/
theorem eval_effect [Host σ] (limit : Nat) (e : Value) (world : World σ) :
    Effect e.Assigns world ((eval limit e).runOn world).2 :=
  eval_does limit e world

/-! ## Effects of a session

A source text may assign any name, so all that is said here is that nothing happens outside the
current frame and that the host changes by requests. -/

namespace Session

variable [Host σ]

/-- Any name may be assigned. -/
def anyName : String → Prop := fun _ => True

theorem evalSource_does (limit : Nat) (source : String) :
    (evalSource limit source : EvalM σ Value).Does anyName :=
  .bind (.ofExcept _) fun e => (eval_does limit e).mono fun _ _ => trivial

theorem evalToText_does (limit : Nat) (source : String) :
    (evalToText limit source : EvalM σ String).Does anyName :=
  fun world => evalSource_does limit source world

theorem evalAndEcho_does (limit : Nat) (source : String) :
    (evalAndEcho limit source : EvalM σ String).Does anyName :=
  .bind (evalToText_does limit source) fun text => .bind (.ask (.message text)) fun _ => .pure text

theorem evalLast_does (limit : Nat) (text : String) (cursor : Int) :
    (evalLast limit text cursor : EvalM σ String).Does anyName := by
  have nothing : (evalLast.echoNothing : EvalM σ String).Does anyName :=
    .bind (.ask _) fun _ => .pure _
  rw [evalLast]
  cases lastExpression? text cursor with
  | none => exact nothing
  | some source =>
      dsimp only
      split
      · exact nothing
      · exact evalAndEcho_does limit source

end Session

end BufferLisp
