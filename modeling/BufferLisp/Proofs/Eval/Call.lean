import BufferLisp.Proofs.Eval.Depth

/-!
# A call is a `let` over the parameters

Calling a user function evaluates the arguments and then the body, in a frame of the parameters
inside the caller's scope.  A `let` that binds the parameters to the argument expressions, with the
body of the function for its own, does the same: it has the same result, leaves the same bindings,
and sends the same requests (`Tree.eval_call_eq_eval_let`).

The two differ in depth alone.  A call looks its function up and goes through the `progn` around the
body, so it needs at most one more evaluation nested than the `let`.  `evalWith` is what they have
in common, with a way of evaluating arguments and another of evaluating the body; each form is
`evalWith` at its own two depths, and a smaller depth is made good by `EvalM.GoesOn`.
-/

set_option autoImplicit false

namespace BufferLisp

/-- The bindings of a `let` that binds parameters to expressions; those without one stand alone. -/
def letBindings : List String → List Value → List Value
  | [], _ => []
  | p :: ps, [] => .sym p :: letBindings ps []
  | p :: ps, e :: es => .list [.sym p, e] :: letBindings ps es

/-- The `let` that binds parameters to expressions around a body. -/
def letOver (params : List String) (args body : List Value) : Value :=
  .list (.sym SpecialForm.letIn.name :: .list (letBindings params args) :: body)

variable {σ : Type}

/-- Evaluates arguments, and then a body in the frame that binds parameters to them. -/
def evalWith (outer inner : Value → EvalM σ Value) (params : List String)
    (args body : List Value) : EvalM σ Value := do
  let values ← evalAll outer args
  EvalM.inFrame (Frame.ofPairs (bindParams params values)) (SpecialForm.sequence inner .nil body)

/-- The bindings of the `let` are the arguments, evaluated from left to right and padded with
`nil`. -/
theorem bindings_letBindings (ev : Value → EvalM σ Value) {params : List String}
    {args : List Value} (enough : args.length ≤ params.length) :
    SpecialForm.bindings ev (letBindings params args) =
      (do let values ← evalAll ev args
          return bindParams params values) := by
  induction params generalizing args with
  | nil =>
      obtain rfl := List.length_eq_zero_iff.mp (Nat.le_zero.mp enough)
      rfl
  | cons p ps ih =>
      cases args with
      | nil =>
          have rest := @ih [] (Nat.zero_le _)
          simp only [evalAll, pure_bind] at rest
          simp only [letBindings, SpecialForm.bindings, SpecialForm.binding, evalAll, bindParams,
            pure_bind, rest]
      | cons e es =>
          have rest := @ih es (Nat.le_of_succ_le_succ enough)
          simp only [letBindings, SpecialForm.bindings, SpecialForm.binding, evalAll, bindParams,
            pure_bind, bind_assoc, rest]

section Forms

variable [Host σ] {params : List String} {args body : List Value}

theorem eval_letOver (limit : Nat) (enough : args.length ≤ params.length) :
    eval (limit + 1) (letOver params args body) =
      (evalWith (eval limit) (eval limit) params args body : EvalM σ Value) := by
  change (do
    let pairs ← SpecialForm.bindings (eval limit) (letBindings params args)
    EvalM.inFrame (Frame.ofPairs pairs) (SpecialForm.sequence (eval limit) .nil body)) = _
  rw [bindings_letBindings _ enough, bind_assoc]
  simp only [pure_bind]
  rfl

/-- A call finds its function, which the evaluation of the arguments can no longer change. -/
theorem runOn_eval_call (limit : Nat) {f : String} (ordinary : SpecialForm.ofName? f = none)
    {world : World σ}
    (bound : world.scope.lookup? f = some (.fn params (.list (.sym "progn" :: body)))) :
    (eval (limit + 2) (.list (.sym f :: args))).runOn world =
      (evalWith (eval (limit + 1)) (eval limit) params args body).runOn world := by
  have found : (eval (limit + 1) (.sym f)).runOn world =
      (.ok (.fn params (.list (.sym "progn" :: body))), world) := by
    change (EvalM.lookup f).runOn world = _
    rw [EvalM.runOn_lookup, Chain.lookup, bound]
    rfl
  rw [eval, step, SpecialForm.ofHead?, ordinary]
  dsimp only
  rw [EvalM.runOn_bind, found]
  rfl

/-- With less depth at hand, less is done. -/
theorem evalWith_goesOn {outer inner outerLimit innerLimit : Nat} (outerLe : outer ≤ outerLimit)
    (innerLe : inner ≤ innerLimit) :
    EvalM.GoesOn (evalWith (eval outer) (eval inner) params args body : EvalM σ Value)
      (evalWith (eval outerLimit) (eval innerLimit) params args body) := by
  have arguments := EvalM.Congruence.evalAll (R := EvalM.goingOn σ)
    (fun e => eval_goesOn outerLe e) args
  have inside := EvalM.Congruence.sequence (R := EvalM.goingOn σ)
    (fun e => eval_goesOn innerLe e) .nil body
  exact .bind arguments fun values => .inFrame _ inside

/-- A call that does not exhaust its depth does what the `let` does. -/
theorem runOn_eval_let_of_call (limit : Nat) {f : String}
    (ordinary : SpecialForm.ofName? f = none) {world : World σ}
    (bound : world.scope.lookup? f = some (.fn params (.list (.sym "progn" :: body))))
    (enough : args.length ≤ params.length)
    (ends : ((eval limit (.list (.sym f :: args))).runOn world).1 ≠ .error .exhausted) :
    (eval limit (letOver params args body)).runOn world =
      (eval limit (.list (.sym f :: args))).runOn world := by
  match limit with
  | 0 => exact absurd rfl ends
  | 1 =>
      rw [eval, step, SpecialForm.ofHead?, ordinary] at ends
      exact absurd rfl ends
  | limit + 2 =>
      rw [runOn_eval_call limit ordinary bound] at ends ⊢
      rw [eval_letOver (limit + 1) enough]
      exact ((evalWith_goesOn (Nat.le_refl _) (Nat.le_succ limit)).runs world).eq_of_ne ends

/-- A `let` that does not exhaust its depth does what the call does one level deeper. -/
theorem runOn_eval_call_of_let (limit : Nat) {f : String}
    (ordinary : SpecialForm.ofName? f = none) {world : World σ}
    (bound : world.scope.lookup? f = some (.fn params (.list (.sym "progn" :: body))))
    (enough : args.length ≤ params.length)
    (ends : ((eval limit (letOver params args body)).runOn world).1 ≠ .error .exhausted) :
    (eval (limit + 1) (.list (.sym f :: args))).runOn world =
      (eval limit (letOver params args body)).runOn world := by
  match limit with
  | 0 => exact absurd rfl ends
  | limit + 1 =>
      rw [eval_letOver limit enough] at ends ⊢
      rw [runOn_eval_call limit ordinary bound]
      exact ((evalWith_goesOn (Nat.le_succ limit) (Nat.le_refl _)).runs world).eq_of_ne ends

/-- **A call of a user function is a `let` over its parameters in the scope of the caller.**  Both
have the same result, leave the same bindings in every frame, and leave the same host, as long as
the depth lasts: the `let` does what a call does within its limit, and the call needs a limit
greater by one at most. -/
theorem Tree.eval_call_eq_eval_let (limit : Nat) (tree : Tree) (host : σ) (i : Nat) {f : String}
    (ordinary : SpecialForm.ofName? f = none)
    (bound : tree.lookup? i f = some (.fn params (.list (.sym "progn" :: body))))
    (enough : args.length ≤ params.length) :
    ((tree.eval limit host i (.list (.sym f :: args))).1 ≠ .error .exhausted →
      tree.eval limit host i (letOver params args body) =
        tree.eval limit host i (.list (.sym f :: args))) ∧
    ((tree.eval limit host i (letOver params args body)).1 ≠ .error .exhausted →
      tree.eval (limit + 1) host i (.list (.sym f :: args)) =
        tree.eval limit host i (letOver params args body)) := by
  rw [← tree.lookup?_chain] at bound
  constructor
  · intro ends
    rw [Tree.eval, runOn_eval_let_of_call limit ordinary bound enough ends, ← Tree.eval]
  · intro ends
    rw [Tree.eval, runOn_eval_call_of_let limit ordinary bound enough ends, ← Tree.eval]

end Forms

/-- Two parameters share a name, the third gets no argument, and the first argument rebinds the name
of the function that is being called: the call and the `let` agree. -/
theorem Tree.eval_call_eq_eval_let_rebound :
    let body : List Value :=
      [.list [.sym "insert", .sym "a"], .list [.sym "list", .sym "a", .sym "b"]]
    let args : List Value := [.list [.sym "setq", .sym "f", .str "one"], .str "two"]
    let tree := Tree.root.setAll 0 [("f", .fn ["a", "a", "b"] (.list (.sym "progn" :: body))),
      ("insert", .prim .insert), ("list", .prim .list)]
    let call := tree.eval 9 Page.blank 0 (.list (.sym "f" :: args))
    tree.lookup? 0 "f" = some (.fn ["a", "a", "b"] (.list (.sym "progn" :: body))) ∧
      call.1 = .ok (.list [.str "two", .nil]) ∧ call.2.1.lookup? 0 "f" = some (.str "one") ∧
      call.2.2.content = "two" ∧
      tree.eval 9 Page.blank 0 (letOver ["a", "a", "b"] args body) = call := by
  intro body args tree call
  have bound : tree.lookup? 0 "f" = some (.fn ["a", "a", "b"] (.list (.sym "progn" :: body))) := rfl
  have result : call.1 = .ok (.list [.str "two", .nil]) := rfl
  refine ⟨bound, result, rfl, by decide +kernel, ?_⟩
  refine (Tree.eval_call_eq_eval_let 9 tree Page.blank 0 (by decide) bound (by decide)).1 ?_
  intro exhausted
  exact nomatch result.symm.trans exhausted

end BufferLisp
