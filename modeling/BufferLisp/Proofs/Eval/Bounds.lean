import BufferLisp.Proofs.Eval.Effect

/-!
# Bounds that evaluation keeps

A class of values is closed under evaluation if it holds the constants, lists of its values, and
whatever the expressions of a class of code stand for.  Then an expression of that class, evaluated
where names have values of the class, has such a value, and binds such values only.  A program may
build lists and take them apart, call functions that it was handed, and define new ones; all of this
comes down to a few closure conditions (`Bounds.Admits`).

At the same time it is told how an evaluation may stop.  An error of the program is always possible;
an offset that is too great for a number is a reply of the host; and the limit is exhausted only where
an expression is evaluated with no depth left.

The conditions speak of two classes of code, for an expression and for the expressions inside it,
so that a measure of the expression may go down on the way (`step_within`).  Where one class will do,
induction on the depth limit gives `eval_within`.
-/

set_option autoImplicit false

namespace BufferLisp

variable {σ α β : Type}

/-! ## Values in scope -/

/-- All values that a frame binds are of a class. -/
def Frame.All (P : Value → Prop) (frame : Frame) : Prop :=
  ∀ binding ∈ frame.bindings, P binding.2

namespace Frame.All

variable {P : Value → Prop} {frame : Frame}

theorem get? (all : frame.All P) {name : String} {value : Value}
    (found : frame.get? name = some value) : P value := by
  unfold Frame.All at all
  unfold Frame.get? at found
  generalize frame.bindings = bindings at all found
  induction bindings with
  | nil => nomatch found
  | cons binding rest ih =>
      obtain ⟨key, bound⟩ := binding
      rw [List.lookup_cons] at found
      split at found
      · obtain rfl := Option.some.inj found
        exact all (key, bound) List.mem_cons_self
      · exact ih (fun later member => all later (List.mem_cons_of_mem _ member)) found

theorem set (all : frame.All P) (name : String) {value : Value} (good : P value) :
    (frame.set name value).All P := by
  unfold Frame.All at all ⊢
  unfold Frame.set
  generalize frame.bindings = bindings at all ⊢
  induction bindings with
  | nil =>
      intro binding member
      rw [List.mem_singleton.mp member]
      exact good
  | cons first rest ih =>
      have others : ∀ binding ∈ rest, P binding.2 :=
        fun binding member => all binding (List.mem_cons_of_mem _ member)
      rw [setIn]
      split
      · exact List.forall_mem_cons.mpr ⟨good, others⟩
      · exact List.forall_mem_cons.mpr ⟨all first List.mem_cons_self, ih others⟩

theorem ofPairs {pairs : List (String × Value)} (good : ∀ pair ∈ pairs, P pair.2) :
    (Frame.ofPairs pairs).All P := by
  have grows : ∀ {start : Frame}, start.All P → (start.setAll pairs).All P := by
    induction pairs with
    | nil => exact fun all => all
    | cons pair rest ih =>
        intro start all
        exact ih (fun later member => good later (List.mem_cons_of_mem _ member))
          (all.set pair.1 (good pair List.mem_cons_self))
  exact grows nofun

end Frame.All

/-- All values that the frames of a chain bind are of a class. -/
def Chain.All (P : Value → Prop) (chain : Chain) : Prop :=
  ∀ frame ∈ chain.frames, frame.All P

namespace Chain.All

variable {P : Value → Prop} {chain : Chain}

theorem lookup? (all : chain.All P) {name : String} {value : Value}
    (found : chain.lookup? name = some value) : P value := by
  obtain ⟨frame, member, bound⟩ := List.exists_of_findSome?_eq_some found
  exact (all frame member).get? bound

theorem set (all : chain.All P) (name : String) {value : Value} (good : P value) :
    (chain.set name value).All P :=
  List.forall_mem_cons.mpr
    ⟨(all chain.current List.mem_cons_self).set name good,
      fun frame member => all frame (List.mem_cons_of_mem _ member)⟩

theorem enter (all : chain.All P) {frame : Frame} (good : frame.All P) :
    (chain.enter frame).All P :=
  List.forall_mem_cons.mpr ⟨good, all⟩

theorem leave (all : chain.All P) : chain.leave.All P := by
  unfold Chain.leave
  cases outer : chain.outer with
  | nil => exact all
  | cons next rest =>
      intro frame member
      refine all frame (List.mem_cons_of_mem _ ?_)
      rw [outer]
      exact member

end Chain.All

/-! ## Runs within bounds -/

/-- The values that evaluations may give and bind, and how they may stop, on a host in a state. -/
structure Bounds (σ : Type) where
  value : Value → Prop
  stop : Stop → σ → Prop

/-- A run ends within bounds, with a result as it should be. -/
structure Bounds.Held (B : Bounds σ) (good : α → Prop) (ran : Except Stop α × World σ) : Prop where
  scope : ran.2.scope.All B.value
  result : ∀ a, ran.1 = .ok a → good a
  stop : ∀ cause, ran.1 = .error cause → B.stop cause ran.2.host

/-- Every run that starts with values within bounds ends within bounds. -/
def EvalM.Within (B : Bounds σ) (good : α → Prop) (action : EvalM σ α) : Prop :=
  ∀ world, world.scope.All B.value → B.Held good (action.runOn world)

namespace EvalM.Within

variable {B : Bounds σ} {good : α → Prop}

theorem pure {a : α} (holds : good a) : Within B good (Pure.pure a) := by
  intro world all
  refine ⟨all, fun b same => ?_, nofun⟩
  obtain rfl := Except.ok.inj same
  exact holds

theorem stop {cause : Stop} (may : ∀ host, B.stop cause host) :
    Within B good (throw cause : EvalM σ α) := by
  intro world all
  refine ⟨all, nofun, fun other same => ?_⟩
  obtain rfl := Except.error.inj same
  exact may _

theorem fail (may : ∀ cause host, B.stop (.error cause) host) (cause : LispError) :
    Within B good (EvalM.fail cause : EvalM σ α) :=
  stop (may cause)

theorem ofExcept (may : ∀ cause host, B.stop (.error cause) host) {result : Except LispError α}
    (holds : ∀ a, result = .ok a → good a) : Within B good (EvalM.ofExcept result) := by
  cases result with
  | ok a => exact pure (holds a rfl)
  | error cause => exact fail may cause

theorem check (may : ∀ cause host, B.stop (.error cause) host) (result : Except LispError α) :
    Within B (fun _ => True) (EvalM.ofExcept result) :=
  ofExcept may fun _ _ => trivial

theorem lookup (may : ∀ cause host, B.stop (.error cause) host) (name : String) :
    Within B B.value (EvalM.lookup name) := by
  intro world all
  rw [runOn_lookup, Chain.lookup]
  cases found : world.scope.lookup? name with
  | none => exact fail may (.unbound name) world all
  | some value => exact pure (all.lookup? found) world all

theorem assign (name : String) {value : Value} (holds : B.value value) :
    Within B (fun _ => True) (EvalM.assign name value) := by
  intro world all
  exact ⟨all.set name holds, fun _ _ => trivial, nofun⟩

theorem bind {middle : β → Prop} {action : EvalM σ β} {next : β → EvalM σ α}
    (first : Within B middle action) (second : ∀ b, middle b → Within B good (next b)) :
    Within B good (action >>= next) := by
  intro world all
  have held := first world all
  rw [runOn_bind]
  generalize action.runOn world = ran at held ⊢
  rcases ran with ⟨cause | b, after⟩
  · exact ⟨held.scope, nofun, fun other same => held.stop other (by cases same; rfl)⟩
  · exact second b (held.result b rfl) after held.scope

theorem inFrame {frame : Frame} (bound : frame.All B.value) {action : EvalM σ α}
    (inside : Within B good action) : Within B good (EvalM.inFrame frame action) := by
  intro world all
  have held := inside { world with scope := world.scope.enter frame } (all.enter bound)
  exact ⟨held.scope.leave, held.result, held.stop⟩

end EvalM.Within

/-! ## Classes of values and code -/

/-- The host has just replied with an offset that is too great for a number. -/
def Host.Overflows [Host σ] (after : σ) : Prop :=
  ∃ before : σ,
    after = (Host.handle .cursor before).2 ∧
        Number.ofInt? (Host.handle .cursor before).1 = none ∨
      after = (Host.handle .content before).2 ∧
        Number.ofInt? (Host.handle .content before).1.length = none

/-- Bounds that code of a class keeps: `whole` is the class of an expression and `part` that of the
expressions inside it. -/
structure Bounds.Admits [Host σ] (B : Bounds σ) (whole part : Value → Prop) : Prop where
  error : ∀ cause host, B.stop (.error cause) host
  overflow : ∀ host, Host.Overflows host → B.stop .outOfRange host
  nil : B.value .nil
  bool : ∀ b, B.value (.bool b)
  num : ∀ x, B.value (.num x)
  str : ∀ s, B.value (.str s)
  list : ∀ items, B.value (.list items) ↔ ∀ v ∈ items, B.value v
  /-- An expression that evaluates to itself. -/
  constant : ∀ e, whole e → B.value e
  /-- An expression that is quoted. -/
  quoted : ∀ e, part e → B.value e
  inside : ∀ items, whole (.list items) → ∀ e ∈ items, part e
  deeper : ∀ items, part (.list items) → ∀ e ∈ items, part e
  /-- The body of a function that is called. -/
  body : ∀ params body, B.value (.fn params body) → part body
  /-- A function that is defined, and the name that it gets. -/
  defun : ∀ name params body names,
    whole (.list (.sym SpecialForm.defun.name :: .sym name :: params :: body)) →
      B.value (.sym name) ∧ B.value (.fn names (.list (.sym SpecialForm.progn.name :: body)))

/-- No bounds on values; an offset that is no number has just been asked for. -/
def Bounds.askedOffsets (σ : Type) [Host σ] : Bounds σ where
  value _ := True
  stop cause host := cause = .outOfRange → Host.Overflows host

theorem Bounds.askedOffsets_admits [Host σ] :
    (askedOffsets σ).Admits (fun _ => True) fun _ => True where
  error _ _ := nofun
  overflow _ overflows _ := overflows
  nil := trivial
  bool _ := trivial
  num _ := trivial
  str _ := trivial
  list _ := ⟨fun _ _ _ => trivial, fun _ => trivial⟩
  constant _ _ := trivial
  quoted _ _ := trivial
  inside _ _ _ _ := trivial
  deeper _ _ _ _ := trivial
  body _ _ _ := trivial
  defun _ _ _ _ _ := ⟨trivial, trivial⟩

namespace Bounds.Admits

variable [Host σ] {B : Bounds σ} {whole part : Value → Prop}

theorem items (admits : B.Admits whole part) {v : Value} (good : B.value v) :
    ∀ item ∈ v.items, B.value item := by
  cases v with
  | list items => exact (admits.list items).mp good
  | _ => exact nofun

theorem deeper_items (admits : B.Admits whole part) {e : Value} (code : part e) :
    ∀ item ∈ e.items, part item := by
  cases e with
  | list items => exact admits.deeper items code
  | _ => exact nofun

theorem headD (admits : B.Admits whole part) {values : List Value}
    (good : ∀ v ∈ values, B.value v) : B.value (values.headD .nil) := by
  cases values with
  | nil => exact admits.nil
  | cons v rest => exact good v List.mem_cons_self

end Bounds.Admits

/-! ## Primitives -/

/-- What a plan leads to is within bounds, whatever the host. -/
def Plan.Fits [Host σ] (B : Bounds σ) : Plan → Prop
  | .done value => B.value value
  | .ask request answer => ∀ host : σ,
      (∀ value, answer (Host.handle request host).1 = some value → B.value value) ∧
        (answer (Host.handle request host).1 = none →
          B.stop .outOfRange (Host.handle request host).2)

/-- A plan with an answer to every reply. -/
theorem Plan.Fits.sure [Host σ] {B : Bounds σ} {request : Request} {value : request.Reply → Value}
    (good : ∀ reply, B.value (value reply)) :
    (Plan.ask request fun reply => some (value reply)).Fits B := by
  refine fun host => ⟨fun answered same => ?_, nofun⟩
  obtain rfl := Option.some.inj same
  exact good _

theorem Plan.Fits.run [Host σ] {B : Bounds σ} {plan : Plan} (fits : plan.Fits B) :
    EvalM.Within B B.value plan.run := by
  cases plan with
  | done value => exact .pure fits
  | ask request answer =>
      intro world all
      obtain ⟨known, none⟩ := fits world.host
      rw [Plan.runOn_ask]
      cases answered : answer (Host.handle request world.host).1 with
      | some value => exact EvalM.Within.pure (known value answered) _ all
      | none =>
          refine ⟨all, nofun, fun cause same => ?_⟩
          obtain rfl := Except.error.inj same
          exact none answered

/-- A check that leads to something good if it is passed. -/
def Gives (good : α → Prop) (check : Except LispError α) : Prop :=
  ∀ a, check = .ok a → good a

theorem Gives.ok {good : α → Prop} {a : α} (holds : good a) : Gives good (.ok a) := by
  intro b same
  obtain rfl := Except.ok.inj same
  exact holds

theorem Gives.bind {good : β → Prop} {check : Except LispError α} {next : α → Except LispError β}
    (passed : ∀ a, check = .ok a → Gives good (next a)) : Gives good (check >>= next) := by
  cases check with
  | ok a => exact passed a rfl
  | error cause => exact nofun

namespace Primitive

variable [Host σ] {B : Bounds σ} {whole part : Value → Prop}

theorem mem_of_first {p : Primitive} {args : List Value} {a : Value}
    (first : p.first args = .ok a) : a ∈ args := by
  cases args with
  | nil => nomatch first
  | cons b rest =>
      obtain rfl : b = a := Except.ok.inj first
      exact List.mem_cons_self

theorem value_of_position (admits : B.Admits whole part) {offset : Int} {v : Value}
    (found : position offset = some v) : B.value v := by
  obtain ⟨x, -, rfl⟩ := Option.map_eq_some_iff.mp found
  exact admits.num x

theorem ofInt?_of_position {offset : Int} (absent : position offset = none) :
    Number.ofInt? offset = none :=
  Option.map_eq_none_iff.mp absent

/-- **A primitive gives values within bounds for arguments within bounds.** -/
theorem plan_fits (admits : B.Admits whole part) (p : Primitive) {args : List Value}
    (good : ∀ a ∈ args, B.value a) : Gives (Plan.Fits B) (p.plan args) := by
  have first : ∀ {a}, p.first args = .ok a → B.value a :=
    fun found => good _ (mem_of_first found)
  have num : ∀ x, (Plan.done (.num x)).Fits B := admits.num
  have bool : ∀ b, (Plan.done (.bool b)).Fits B := admits.bool
  have tail : ∀ a ∈ args.tail, B.value a := fun a member => good a (List.mem_of_mem_tail member)
  cases p with
  | add => exact .bind fun _ _ => .ok (num _)
  | sub => exact .bind fun _ _ => .bind fun _ _ => .bind fun _ _ => .ok (num _)
  | mul => exact .bind fun _ _ => .ok (num _)
  | div => exact .bind fun _ _ => .ok (num _)
  | equal => exact .bind fun _ _ => .ok (bool _)
  | less => exact .bind fun _ _ => .ok (bool _)
  | greater => exact .bind fun _ _ => .ok (bool _)
  | list => exact .ok ((admits.list args).mpr good)
  | cons =>
      refine .bind fun a found => .ok ((admits.list _).mpr ?_)
      exact List.forall_mem_cons.mpr ⟨first found, admits.items (admits.headD tail)⟩
  | car => exact .bind fun a found => .ok (admits.headD (admits.items (first found)))
  | cdr =>
      refine .bind fun a found => ?_
      have items := admits.items (first found)
      cases listed : a.items with
      | nil => exact .ok admits.nil
      | cons v rest =>
          refine .ok ((admits.list rest).mpr fun item member => items item ?_)
          rw [listed]
          exact List.mem_cons_of_mem v member
  | message => exact .ok (.sure fun _ => admits.str _)
  | insert => exact .ok (.sure fun _ => admits.nil)
  | bufferName => exact .ok (.sure fun name => admits.str name)
  | currentBuffer => exact .ok (.sure fun name => admits.str name)
  | switchToBuffer => exact .bind fun _ _ => .bind fun _ _ => .ok (.sure fun _ => admits.str _)
  | killBuffer => exact .bind fun _ _ => .bind fun _ _ => .ok (.sure fun _ => admits.nil)
  | point =>
      exact .ok fun host => ⟨fun _ => value_of_position admits, fun none =>
        admits.overflow _ ⟨host, .inl ⟨rfl, ofInt?_of_position none⟩⟩⟩
  | pointMin => exact .ok (num _)
  | pointMax =>
      exact .ok fun host => ⟨fun _ => value_of_position admits, fun none =>
        admits.overflow _ ⟨host, .inr ⟨rfl, ofInt?_of_position none⟩⟩⟩
  | gotoChar => exact .bind fun a found => .bind fun _ _ => .ok (.sure fun _ => first found)

theorem call_within (admits : B.Admits whole part) (p : Primitive) {args : List Value}
    (good : ∀ a ∈ args, B.value a) : EvalM.Within B B.value (p.call args) :=
  .bind (.ofExcept admits.error (p.plan_fits admits good)) fun _ fits => fits.run

end Primitive

/-! ## Special forms -/

namespace SpecialForm

variable {B : Bounds σ} {whole part : Value → Prop} {ev : Value → EvalM σ Value}

theorem sequence_within {parts : List Value} (each : ∀ e ∈ parts, (ev e).Within B B.value)
    {value : Value} (good : B.value value) : (sequence ev value parts).Within B B.value := by
  induction parts generalizing value with
  | nil => exact .pure good
  | cons e rest ih =>
      refine .bind (each e (by simp)) ?_
      intro next good
      exact ih (fun part member => each part (by simp [member])) good

theorem assignPairs_within (may : ∀ cause host, B.stop (.error cause) host) {tail : List Value}
    (each : ∀ e ∈ tail, (ev e).Within B B.value) {value : Value} (good : B.value value) :
    (assignPairs ev value tail).Within B B.value := by
  fun_induction assignPairs ev value tail with
  | case1 value => exact .pure good
  | case2 _ name e rest ih =>
      refine .bind (each e (by simp)) ?_
      intro next good
      refine .bind (.assign name good) fun _ _ => ?_
      exact ih next (fun part member => each part (by simp [member])) good
  | case3 => exact .fail may _
  | case4 => exact .fail may _

variable [Host σ]

theorem choose_within (admits : B.Admits whole part) {tail : List Value}
    (each : ∀ e ∈ tail, (ev e).Within B B.value) : (choose ev tail).Within B B.value := by
  rcases tail with _ | ⟨test, _ | ⟨yes, rest⟩⟩
  · exact .fail admits.error _
  · exact .fail admits.error _
  · refine .bind (each test (by simp)) ?_
    intro condition _
    split
    · exact each yes (by simp)
    · rcases rest with _ | ⟨no, rest⟩
      · exact .pure admits.nil
      · exact each no (by simp)

theorem define_within (admits : B.Admits whole part) {tail : List Value}
    (code : whole (.list (.sym SpecialForm.defun.name :: tail))) :
    (define tail : EvalM σ Value).Within B B.value := by
  unfold define
  split
  · next name params body =>
    split
    · exact .fail admits.error _
    · refine .bind (.check admits.error _) ?_
      intro names _
      obtain ⟨symbol, function⟩ := admits.defun name params body names code
      exact .bind (.assign name function) fun _ _ => .pure symbol
  · exact .fail admits.error _
  · exact .fail admits.error _

theorem binding_within (admits : B.Admits whole part) {written : Value}
    (each : ∀ e ∈ written.items, (ev e).Within B B.value) :
    (binding ev written).Within B fun pair => B.value pair.2 := by
  unfold binding
  split
  · exact .pure admits.nil
  · exact .pure admits.nil
  · exact .bind (each _ (by simp [Value.items])) fun _ good => .pure good
  · exact .fail admits.error _

theorem bindings_within (admits : B.Admits whole part) {written : List Value}
    (each : ∀ b ∈ written, ∀ e ∈ b.items, (ev e).Within B B.value) :
    (bindings ev written).Within B fun pairs => ∀ pair ∈ pairs, B.value pair.2 := by
  induction written with
  | nil => exact .pure nofun
  | cons b rest ih =>
      refine .bind (binding_within admits (each b (by simp))) ?_
      intro pair good
      refine .bind (ih fun other member => each other (by simp [member])) ?_
      intro pairs others
      exact .pure (List.forall_mem_cons.mpr ⟨good, others⟩)

theorem bindLocally_within (admits : B.Admits whole part) {tail : List Value}
    (each : ∀ e, part e → (ev e).Within B B.value) (code : ∀ e ∈ tail, part e) :
    (bindLocally ev tail).Within B B.value := by
  cases tail with
  | nil => exact .fail admits.error _
  | cons head body =>
      rw [bindLocally]
      cases listed : listItems? head with
      | none => exact .fail admits.error _
      | some items =>
          obtain rfl := items_of_listItems? listed
          have bindingCode := admits.deeper_items (code head (by simp))
          refine .bind (bindings_within admits fun b inHead e inBinding =>
            each e (admits.deeper_items (bindingCode b inHead) e inBinding)) ?_
          intro pairs good
          exact .inFrame (.ofPairs good)
            (sequence_within (fun e member => each e (code e (by simp [member]))) admits.nil)

/-- A special form of the class keeps within bounds, if the expressions inside it do. -/
theorem eval_within (admits : B.Admits whole part) (each : ∀ e, part e → (ev e).Within B B.value)
    (form : SpecialForm) {tail : List Value} (code : whole (.list (.sym form.name :: tail))) :
    (form.eval ev tail).Within B B.value := by
  have parts : ∀ e ∈ tail, part e := fun e member => admits.inside _ code e (by simp [member])
  have within : ∀ e ∈ tail, (ev e).Within B B.value := fun e member => each e (parts e member)
  cases form with
  | quote =>
      cases tail with
      | nil => exact .fail admits.error _
      | cons v rest => exact .pure (admits.quoted v (parts v (by simp)))
  | setq => exact assignPairs_within admits.error within admits.nil
  | ifElse => exact choose_within admits within
  | defun => exact define_within admits code
  | progn => exact sequence_within within admits.nil
  | letIn => exact bindLocally_within admits each parts
  | interactive => exact .pure admits.nil

end SpecialForm

/-! ## Evaluation -/

section Evaluation

variable {B : Bounds σ} {whole part : Value → Prop} {ev : Value → EvalM σ Value}

theorem evalAll_within {parts : List Value} (each : ∀ e ∈ parts, (ev e).Within B B.value) :
    (evalAll ev parts).Within B fun values => ∀ v ∈ values, B.value v := by
  induction parts with
  | nil => exact .pure nofun
  | cons e rest ih =>
      refine .bind (each e (by simp)) ?_
      intro value good
      refine .bind (ih fun part member => each part (by simp [member])) ?_
      intro values others
      exact .pure (List.forall_mem_cons.mpr ⟨good, others⟩)

theorem bindParams_all {P : Value → Prop} (none : P .nil) (params : List String)
    {args : List Value} (good : ∀ a ∈ args, P a) : ∀ pair ∈ bindParams params args, P pair.2 := by
  induction params generalizing args with
  | nil => exact nofun
  | cons p ps ih =>
      cases args with
      | nil => exact List.forall_mem_cons.mpr ⟨none, ih nofun⟩
      | cons a as =>
          obtain ⟨first, others⟩ := List.forall_mem_cons.mp good
          exact List.forall_mem_cons.mpr ⟨first, ih others⟩

variable [Host σ]

theorem applyTo_within (admits : B.Admits whole part)
    (each : ∀ e, part e → (ev e).Within B B.value) (shown : Value) {head : Value}
    (callee : B.value head) {args : List Value} (good : ∀ a ∈ args, B.value a) :
    (applyTo ev shown head args).Within B B.value := by
  cases head with
  | prim p => exact p.call_within admits good
  | fn params body =>
      exact .inFrame (.ofPairs (bindParams_all admits.nil params good))
        (each body (admits.body params body callee))
  | _ => exact .fail admits.error _

/-- **One step keeps within bounds, if the evaluations inside it do.** -/
theorem step_within (admits : B.Admits whole part) (each : ∀ e, part e → (ev e).Within B B.value)
    {e : Value} (code : whole e) : (step ev e).Within B B.value := by
  cases e with
  | sym name => exact .lookup admits.error name
  | list items =>
      rcases items with _ | ⟨head, tail⟩
      · exact .pure admits.nil
      · rw [step]
        have parts := admits.inside _ code
        cases named : SpecialForm.ofHead? head with
        | some form =>
            obtain rfl := SpecialForm.eq_of_ofHead? named
            exact SpecialForm.eval_within admits each form code
        | none =>
            refine .bind (each head (parts head (by simp))) ?_
            intro callee good
            refine .bind (evalAll_within fun e member => each e (parts e (by simp [member]))) ?_
            intro args others
            exact applyTo_within admits each head good others
  | _ => exact .pure (admits.constant _ code)

/-- **Code of a class keeps the bounds that admit it.** -/
theorem eval_within {code : Value → Prop} (admits : B.Admits code code)
    (exhausted : ∀ host, B.stop .exhausted host) (limit : Nat) {e : Value} (member : code e) :
    (eval limit e : EvalM σ Value).Within B B.value := by
  induction limit generalizing e with
  | zero => exact .stop exhausted
  | succ limit ih => exact step_within admits (fun _ inside => ih inside) member

end Evaluation

end BufferLisp
