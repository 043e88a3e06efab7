import BufferLisp.Proofs.Eval.Bounds
import BufferLisp.Proofs.Eval.Requests

/-!
# Primitives check before they act

A primitive first checks its arguments and then acts, by one request at most.  If it rejects its
arguments, by their number or by their kinds, it has sent nothing, and so the world is as it was.

A call of a primitive evaluates the forms of its arguments one after the other.  It stops where one of
them stops, and the forms behind that one are not reached; or all forms have values and the primitive
rejects these.  Either way the world is as the forms that were reached have left it.  `CallStops`
lists these ways, together with the only other one: the host has been asked for an offset, and its
reply is too great for a number.
-/

set_option autoImplicit false

namespace BufferLisp

variable {σ : Type}

/-! ## Rejected arguments -/

/-- The errors by which a primitive rejects its arguments. -/
inductive LispError.Rejects (p : Primitive) : LispError → Prop
  | tooFew (needed got : Nat) : Rejects p (.tooFewArguments p needed got)
  | wrongType (wanted : Wanted) (got : Value) : Rejects p (.wrongType p wanted got)

namespace Primitive

variable {α β : Type} {p : Primitive}

/-- If the check fails, the primitive rejects its arguments. -/
def Checks (p : Primitive) (check : Except LispError α) : Prop :=
  ∀ cause, check = .error cause → cause.Rejects p

namespace Checks

theorem ok (a : α) : p.Checks (.ok a) := nofun

theorem error {cause : LispError} (rejects : cause.Rejects p) :
    p.Checks (.error cause : Except LispError α) := by
  intro other same
  obtain rfl := Except.error.inj same
  exact rejects

theorem bind {check : Except LispError α} {next : α → Except LispError β} (first : p.Checks check)
    (second : ∀ a, p.Checks (next a)) : p.Checks (check >>= next) := by
  cases check with
  | ok a => exact second a
  | error cause => exact error (first cause rfl)

theorem number (v : Value) : p.Checks (p.number v) := by
  cases v with
  | num x => exact ok x
  | nan place => exact ok _
  | _ => exact error (.wrongType _ _)

theorem numbers (vs : List Value) : p.Checks (p.numbers vs) := by
  induction vs with
  | nil => exact ok []
  | cons v rest ih => exact bind (number v) fun x => bind ih fun xs => ok (x :: xs)

theorem first (args : List Value) : p.Checks (p.first args) := by
  cases args with
  | nil => exact error (.tooFew 1 0)
  | cons a rest => exact ok a

theorem firstTwo (args : List Value) : p.Checks (p.firstTwo args) := by
  unfold Primitive.firstTwo
  split
  · exact ok _
  · exact error (.tooFew _ _)

theorem twoNumbers (args : List Value) : p.Checks (p.twoNumbers args) :=
  bind (firstTwo args) fun _ => bind (number _) fun _ => bind (number _) fun _ => ok _

theorem namedBuffer (v : Value) : p.Checks (p.namedBuffer v) := by
  cases v with
  | str s => exact ok s
  | sym name => exact ok name
  | _ => exact error (.wrongType _ _)

theorem offset (v : Value) : p.Checks (p.offset v) := by
  refine bind (number v) fun x => ?_
  split
  · exact ok _
  · exact error (.wrongType _ _)

/-- **A primitive has no errors but those about its own arguments.** -/
theorem plan (args : List Value) : p.Checks (p.plan args) := by
  cases p with
  | add => exact bind (numbers args) fun _ => ok _
  | sub => exact bind (first args) fun _ => bind (number _) fun _ => bind (numbers _) fun _ => ok _
  | mul => exact bind (numbers args) fun _ => ok _
  | div => exact bind (twoNumbers args) fun _ => ok _
  | equal => exact bind (firstTwo args) fun _ => ok _
  | less => exact bind (twoNumbers args) fun _ => ok _
  | greater => exact bind (twoNumbers args) fun _ => ok _
  | list => exact ok _
  | cons => exact bind (first args) fun _ => ok _
  | car => exact bind (first args) fun _ => ok _
  | cdr =>
      refine bind (first args) fun a => ?_
      cases a.items with
      | nil => exact ok _
      | cons v rest => exact ok _
  | message => exact ok _
  | insert => exact ok _
  | bufferName => exact ok _
  | currentBuffer => exact ok _
  | switchToBuffer => exact bind (first args) fun _ => bind (namedBuffer _) fun _ => ok _
  | killBuffer => exact bind (first args) fun _ => bind (namedBuffer _) fun _ => ok _
  | point => exact ok _
  | pointMin => exact ok _
  | pointMax => exact ok _
  | gotoChar => exact bind (first args) fun _ => bind (offset _) fun _ => ok _

end Checks

/-- If no value can be made of the reply to a request, this has asked for the text or for the place
of the cursor. -/
theorem asked_of_none [Host σ] {args : List Value} {request : Request}
    {answer : request.Reply → Option Value} {host : σ}
    (plan : p.plan args = .ok (.ask request answer))
    (none : answer (Host.handle request host).1 = none) :
    request = .cursor ∨ request = .content := by
  have fits := p.plan_fits (@Bounds.askedOffsets_admits (Logged σ) _) (fun _ _ => trivial) _ plan
  obtain ⟨-, overflows⟩ := fits ⟨host, []⟩
  -- The request is the last one on record.
  obtain ⟨before, ⟨after, -⟩ | ⟨after, -⟩⟩ := overflows none rfl
  · have record : [] ++ [request] = before.requests ++ [.cursor] := congrArg Logged.requests after
    exact .inl (List.singleton_inj.mp (List.append_inj_right' record rfl))
  · have record : [] ++ [request] = before.requests ++ [.content] := congrArg Logged.requests after
    exact .inr (List.singleton_inj.mp (List.append_inj_right' record rfl))

end Primitive

/-! ## Forms of arguments -/

/-- Expressions have values one after the other. -/
inductive Evaluates (ev : Value → EvalM σ Value) :
    World σ → List Value → List Value → World σ → Prop
  | nil (world : World σ) : Evaluates ev world [] [] world
  | cons {before between after : World σ} {e value : Value} {rest values : List Value}
      (first : (ev e).runOn before = (.ok value, between))
      (others : Evaluates ev between rest values after) :
      Evaluates ev before (e :: rest) (value :: values) after

theorem runOn_evalAll_eq_ok_iff {ev : Value → EvalM σ Value} {forms values : List Value}
    {world after : World σ} :
    (evalAll ev forms).runOn world = (.ok values, after) ↔
      Evaluates ev world forms values after := by
  constructor
  · intro ran
    induction forms generalizing world values with
    | nil =>
        cases ran
        exact .nil _
    | cons e rest ih =>
        rw [evalAll, EvalM.runOn_bind] at ran
        rcases first : (ev e).runOn world with ⟨stop | value, between⟩ <;> rw [first] at ran
        · nomatch ran
        · dsimp only at ran
          rw [EvalM.runOn_bind] at ran
          rcases others : (evalAll ev rest).runOn between with ⟨stop | more, last⟩ <;>
            rw [others] at ran
          · nomatch ran
          · cases ran
            exact .cons first (ih others)
  · intro evaluates
    induction evaluates with
    | nil world => rfl
    | cons first _ ih =>
        rw [evalAll, EvalM.runOn_bind, first]
        dsimp only
        rw [EvalM.runOn_bind, ih]
        rfl

/-- Evaluating forms stops exactly if one of them does after those before it have had values. -/
theorem runOn_evalAll_eq_error_iff {ev : Value → EvalM σ Value} {forms : List Value}
    {world after : World σ} {stop : Stop} :
    (evalAll ev forms).runOn world = (.error stop, after) ↔
      ∃ front e back values before, forms = front ++ e :: back ∧
        Evaluates ev world front values before ∧ (ev e).runOn before = (.error stop, after) := by
  constructor
  · intro ran
    induction forms generalizing world with
    | nil => nomatch ran
    | cons e rest ih =>
        rw [evalAll, EvalM.runOn_bind] at ran
        rcases first : (ev e).runOn world with ⟨cause | value, between⟩ <;> rw [first] at ran
        · cases ran
          exact ⟨[], e, rest, [], world, rfl, .nil world, first⟩
        · dsimp only at ran
          rw [EvalM.runOn_bind] at ran
          rcases others : (evalAll ev rest).runOn between with ⟨cause | more, last⟩ <;>
            rw [others] at ran
          · cases ran
            obtain ⟨front, e', back, values, before, rfl, evaluates, stops⟩ := ih others
            exact ⟨e :: front, e', back, value :: values, before, rfl, .cons first evaluates, stops⟩
          · nomatch ran
  · rintro ⟨front, e, back, values, before, rfl, evaluates, stops⟩
    induction evaluates with
    | nil world => rw [List.nil_append, evalAll, EvalM.runOn_bind, stops]
    | cons first _ ih =>
        rw [List.cons_append, evalAll, EvalM.runOn_bind, first]
        dsimp only
        rw [EvalM.runOn_bind, ih stops]

section Calls

variable [Host σ]

/-- How the call of a primitive on the forms of its arguments stops, and the world that it leaves. -/
inductive CallStops (ev : Value → EvalM σ Value) (p : Primitive) (world : World σ)
    (forms : List Value) : Stop → World σ → Prop
  /-- A form stops after those before it have had values, and those behind it are not reached. -/
  | form {front back values : List Value} {e : Value} {before after : World σ} {stop : Stop}
      (split : forms = front ++ e :: back) (evaluates : Evaluates ev world front values before)
      (stops : (ev e).runOn before = (.error stop, after)) : CallStops ev p world forms stop after
  /-- The primitive rejects the values of the forms, and the world is as the forms have left it. -/
  | rejected {values : List Value} {after : World σ} {cause : LispError}
      (evaluates : Evaluates ev world forms values after) (plan : p.plan values = .error cause) :
      CallStops ev p world forms (.error cause) after
  /-- No value can be made of the reply to the one request, which has asked for an offset. -/
  | overflow {values : List Value} {before : World σ} {request : Request}
      {answer : request.Reply → Option Value} (evaluates : Evaluates ev world forms values before)
      (plan : p.plan values = .ok (.ask request answer))
      (asked : request = .cursor ∨ request = .content)
      (none : answer (Host.handle request before.host).1 = none) :
      CallStops ev p world forms .outOfRange
        { before with host := (Host.handle request before.host).2 }

/-- A call of a primitive by its name evaluates the arguments and calls the primitive. -/
theorem runOn_eval_primitive (limit : Nat) {name : String} {p : Primitive} {world : World σ}
    (ordinary : SpecialForm.ofName? name = none)
    (bound : world.scope.lookup? name = some (.prim p)) (forms : List Value) :
    (eval (limit + 2) (.list (.sym name :: forms))).runOn world =
      (evalAll (eval (limit + 1)) forms >>= p.call).runOn world := by
  have found : (eval (limit + 1) (.sym name)).runOn world = (.ok (.prim p), world) := by
    change (EvalM.lookup name).runOn world = _
    rw [EvalM.runOn_lookup, Chain.lookup, bound]
    rfl
  rw [eval, step, SpecialForm.ofHead?, ordinary]
  dsimp only
  rw [EvalM.runOn_bind, found]
  rfl

/-- Without the depth to look up its name, a call does nothing. -/
theorem runOn_eval_shallow {limit : Nat} (few : limit < 2) {name : String}
    (ordinary : SpecialForm.ofName? name = none) (forms : List Value) (world : World σ) :
    (eval limit (.list (.sym name :: forms))).runOn world = (.error .exhausted, world) := by
  match limit with
  | 0 => rfl
  | 1 =>
      rw [eval, step, SpecialForm.ofHead?, ordinary]
      rfl

theorem runOn_call_eq_error_iff {ev : Value → EvalM σ Value} {p : Primitive}
    {forms : List Value} {world after : World σ} {stop : Stop} :
    (evalAll ev forms >>= p.call).runOn world = (.error stop, after) ↔
      CallStops ev p world forms stop after := by
  rw [EvalM.runOn_bind]
  constructor
  · intro ran
    rcases all : (evalAll ev forms).runOn world with ⟨cause | values, between⟩ <;> rw [all] at ran
    · cases ran
      obtain ⟨front, e, back, values, before, split, evaluates, stops⟩ :=
        runOn_evalAll_eq_error_iff.mp all
      exact .form split evaluates stops
    · have evaluates := runOn_evalAll_eq_ok_iff.mp all
      dsimp only at ran
      rw [Primitive.runOn_call] at ran
      rcases plan : p.plan values with cause | ⟨value | ⟨request, answer⟩⟩ <;> rw [plan] at ran
      · cases ran
        exact .rejected evaluates plan
      · nomatch ran
      · dsimp only at ran
        rw [Plan.runOn_ask] at ran
        cases answered : answer (Host.handle request between.host).1 with
        | some value =>
            rw [answered] at ran
            nomatch ran
        | none =>
            rw [answered] at ran
            cases ran
            exact .overflow evaluates plan (Primitive.asked_of_none plan answered) answered
  · intro stops
    cases stops with
    | form split evaluates stops =>
        rw [runOn_evalAll_eq_error_iff.mpr ⟨_, _, _, _, _, split, evaluates, stops⟩]
    | rejected evaluates plan =>
        rw [runOn_evalAll_eq_ok_iff.mpr evaluates]
        dsimp only
        rw [Primitive.runOn_call, plan]
    | overflow evaluates plan _ none =>
        rw [runOn_evalAll_eq_ok_iff.mpr evaluates]
        dsimp only
        rw [Primitive.runOn_call, plan]
        dsimp only
        rw [Plan.runOn_ask, none]

/-- A call that ends with an error has been rejected, and has changed nothing. -/
theorem Primitive.rejects_of_call {p : Primitive} {args : List Value} {world after : World σ}
    {cause : LispError} (ran : (p.call args).runOn world = (.error (.error cause), after)) :
    cause.Rejects p ∧ after = world := by
  rw [runOn_call] at ran
  rcases plan : p.plan args with other | ⟨value | ⟨request, answer⟩⟩ <;> rw [plan] at ran
  · cases ran
    exact ⟨Checks.plan args cause plan, rfl⟩
  · nomatch ran
  · dsimp only at ran
    rw [Plan.runOn_ask] at ran
    cases answered : answer (Host.handle request world.host).1 <;> rw [answered] at ran <;>
      nomatch ran

/-- A call that has a value has sent its request, if its plan has one. -/
theorem Primitive.sent_of_call {p : Primitive} {args : List Value} {world after : World (Logged σ)}
    {value : Value} (ran : (p.call args).runOn world = (.ok value, after)) :
    ∃ sent, sent.length ≤ 1 ∧ after.host.requests = world.host.requests ++ sent ∧
      after.host.host = Host.handleAll world.host.host sent := by
  rw [runOn_call] at ran
  rcases plan : p.plan args with other | ⟨known | ⟨request, answer⟩⟩ <;> rw [plan] at ran
  · nomatch ran
  · cases ran
    exact ⟨[], Nat.zero_le 1, (List.append_nil _).symm, rfl⟩
  · dsimp only at ran
    rw [Plan.runOn_ask] at ran
    obtain rfl : _ = after := congrArg Prod.snd ran
    exact ⟨[request], Nat.le_refl 1, rfl, rfl⟩

/-- **A primitive checks its arguments before it acts.**  If it stops with an error, this is that
its arguments are too few or that one is of the wrong kind, and it has sent no request: the host and
the record of requests are as before.  If it has a value, it has sent one request at most.

A call by a name that is bound to the primitive stops in one of the `CallStops`: an error leaves the
world where the forms of its arguments that were reached have left it. -/
theorem Primitive.call_checks_first (p : Primitive) :
    (∀ (args : List Value) (world : World (Logged σ)),
      (∀ cause after, (p.call args).runOn world = (.error (.error cause), after) →
        cause.Rejects p ∧ after = world) ∧
      ∀ value after, (p.call args).runOn world = (.ok value, after) →
        ∃ sent, sent.length ≤ 1 ∧ after.host.requests = world.host.requests ++ sent ∧
          after.host.host = Host.handleAll world.host.host sent) ∧
    ∀ (name : String) (forms : List Value) (world : World σ),
      SpecialForm.ofName? name = none → world.scope.lookup? name = some (.prim p) →
        (∀ limit stop after,
          (eval (limit + 2) (.list (.sym name :: forms))).runOn world = (.error stop, after) ↔
            CallStops (eval (limit + 1)) p world forms stop after) ∧
        ∀ few < 2,
          (eval few (.list (.sym name :: forms))).runOn world = (.error .exhausted, world) := by
  constructor
  · intro args world
    exact ⟨fun cause after => rejects_of_call, fun value after => sent_of_call⟩
  · intro name forms world ordinary bound
    refine ⟨fun limit stop after => ?_, fun few small => ?_⟩
    · rw [runOn_eval_primitive limit ordinary bound]
      exact runOn_call_eq_error_iff
    · exact runOn_eval_shallow small ordinary forms world

end Calls

/-- Both argument forms insert a text before the first is found to be no name of a buffer: their
insertions stay, and no buffer is switched to. -/
theorem Primitive.call_checks_first_inserted :
    let typing (text : String) (value : Value) : Value :=
      .list [.sym "progn", .list [.sym "insert", .str text], value]
    let forms := [typing "x" (.num 5.0), typing "y" .nil]
    let world : World (Logged Page) := ⟨Chain.global, ⟨Page.blank, []⟩⟩
    let ran := (eval 4 (.list (.sym "switch-to-buffer" :: forms))).runOn world
    let cause := LispError.wrongType .switchToBuffer .bufferName (.num 5.0)
    ran.1 = .error (.error cause) ∧ ran.2.host.requests = [.insert "x", .insert "y"] ∧
      CallStops (eval 3) .switchToBuffer world forms (.error cause) ran.2 ∧
      (Primitive.switchToBuffer.call [.num 5.0]).runOn world = (.error (.error cause), world) ∧
      cause.Rejects .switchToBuffer ∧
      ∃ sent, sent.length ≤ 1 ∧
        ((Primitive.switchToBuffer.call [.str "b"]).runOn world).2.host.requests = sent := by
  intro typing forms world ran cause
  obtain ⟨direct, -⟩ := @call_checks_first Page _ .switchToBuffer
  obtain ⟨-, applied⟩ := @call_checks_first (Logged Page) _ .switchToBuffer
  have stops := (applied "switch-to-buffer" forms world (by decide) rfl).1 2 (.error cause) ran.2
  have rejected : (Primitive.switchToBuffer.call [.num 5.0]).runOn world =
      (.error (.error cause), world) := rfl
  obtain ⟨rejects, -⟩ := (direct [.num 5.0] world).1 cause world rejected
  obtain ⟨sent, one, requests, -⟩ := (direct [.str "b"] world).2 _ _ rfl
  exact ⟨rfl, by decide +kernel, stops.mp rfl, rejected, rejects, sent, one, requests⟩

end BufferLisp
