import BufferLisp.Proofs.Eval.Bounds
import BufferLisp.Proofs.Eval.Depth
import BufferLisp.Proofs.Value.Occurrence

/-!
# Programs without functions end

Evaluation need not end: a function may call itself.  Without functions it always does.  If no
function stands in an expression or in a value that is bound, and the expression defines none, then
each evaluation inside another is that of an expression inside the other's.  So the evaluations are
nested no deeper than the lists of the expression, and a limit of one more than that is never
exhausted (`eval_functionless`).

What has to be carried along is that no function comes up on the way.  Quoted code is a value and may
be taken apart and bound, but no function stands in it, and lists are made of values at hand.  This
is a case of `step_within`, with a bound on the depth of the code that goes down by one from an
expression to those inside it.

Such a program ends with a value or an error of the program, unless the host replies with an offset
that is too great for a number; a program that asks for the cursor then stops out of range
(`eval_functionless_farCursor`).
-/

set_option autoImplicit false

namespace BufferLisp

namespace Value

/-! ## Values without functions -/

/-- No function occurs in the value. -/
def Functionless (v : Value) : Prop :=
  ∀ params body, ¬ Occurs (.fn params body) v

/-- No list that is headed by the name of `defun` occurs in the expression. -/
def Defunless (e : Value) : Prop :=
  ∀ tail, ¬ Occurs (.list (.sym SpecialForm.defun.name :: tail)) e

theorem functionless_list_iff {items : List Value} :
    (list items).Functionless ↔ ∀ v ∈ items, v.Functionless := by
  simp only [Functionless, occurs_list_iff, reduceCtorEq, false_or, not_exists, not_and]
  exact ⟨fun free v member params body => free params body v member,
    fun free params body v member => free v member params body⟩

theorem functionless_of_atom {v : Value} (notList : ∀ items, v ≠ .list items)
    (notFunction : ∀ params body, v ≠ .fn params body) : v.Functionless := by
  intro params body occurs
  exact notFunction params body ((occurs_atom_iff notList).mp occurs).symm

theorem not_functionless_fn (params : List String) (body : Value) :
    ¬ (fn params body).Functionless :=
  fun free => free params body .whole

theorem Defunless.of_mem {items : List Value} (free : (list items).Defunless) {e : Value}
    (member : e ∈ items) : e.Defunless :=
  fun tail occurs => free tail (.item member occurs)

/-! ## Depth -/

mutual

/-- How deep the lists of an expression are nested. -/
def depth : Value → Nat
  | list items => depthAll items + 1
  | _ => 0

/-- The depth of the deepest of the expressions. -/
def depthAll : List Value → Nat
  | [] => 0
  | e :: rest => max (depth e) (depthAll rest)

end

theorem depth_lt_of_mem {items : List Value} {e : Value} (member : e ∈ items) :
    e.depth < (list items).depth := by
  have deepest : e.depth ≤ depthAll items := by
    induction items with
    | nil => nomatch member
    | cons first rest ih =>
        rw [depthAll]
        rcases List.mem_cons.mp member with rfl | member
        · exact Nat.le_max_left _ _
        · exact Nat.le_trans (ih member) (Nat.le_max_right _ _)
  rw [depth]
  omega

/-- Code without functions that is nested less deep than a limit. -/
structure Plain (limit : Nat) (e : Value) : Prop where
  functionless : e.Functionless
  defunless : e.Defunless
  shallow : e.depth < limit

theorem Plain.of_mem {items : List Value} {limit : Nat} (plain : Plain limit (list items))
    {e : Value} (member : e ∈ items) : Plain (limit - 1) e where
  functionless := functionless_list_iff.mp plain.functionless e member
  defunless := plain.defunless.of_mem member
  shallow := by
    have shallow := plain.shallow
    have inside := depth_lt_of_mem member
    omega

theorem Plain.mono {limit greater : Nat} (le : limit ≤ greater) {e : Value}
    (plain : Plain limit e) : Plain greater e :=
  { plain with shallow := Nat.lt_of_lt_of_le plain.shallow le }

end Value

/-! ## Evaluation -/

variable {σ : Type} [Host σ]

/-- Values without functions; an evaluation stops by an error of the program, or after an offset
that is too great. -/
def functionlessValues (σ : Type) [Host σ] : Bounds σ where
  value := Value.Functionless
  stop cause host :=
    (∃ error, cause = .error error) ∨ cause = .outOfRange ∧ Host.Overflows host

/-- Plain code keeps these bounds, and what stands inside it is plain for a limit that is less by
one. -/
theorem functionlessValues_admits (limit : Nat) :
    (functionlessValues σ).Admits (Value.Plain (limit + 1)) (Value.Plain limit) where
  error cause _ := .inl ⟨cause, rfl⟩
  overflow _ overflows := .inr ⟨rfl, overflows⟩
  nil := Value.functionless_of_atom nofun nofun
  bool _ := Value.functionless_of_atom nofun nofun
  num _ := Value.functionless_of_atom nofun nofun
  str _ := Value.functionless_of_atom nofun nofun
  list _ := Value.functionless_list_iff
  constant _ plain := plain.functionless
  quoted _ plain := plain.functionless
  inside _ plain _ member := plain.of_mem member
  deeper _ plain _ member := (plain.of_mem member).mono (Nat.sub_le limit 1)
  body params body function := absurd function (Value.not_functionless_fn params body)
  defun _ _ _ _ plain := absurd .whole (plain.defunless _)

theorem eval_plain_within (limit : Nat) {e : Value} (plain : e.Plain limit) :
    (eval limit e : EvalM σ Value).Within (functionlessValues σ) Value.Functionless := by
  induction limit generalizing e with
  | zero => exact absurd plain.shallow (Nat.not_lt_zero _)
  | succ limit ih => exact step_within (functionlessValues_admits limit) (fun _ => ih) plain

/-- **A program without functions ends, within its own depth.**  Let no function occur in an
expression or in a value that is bound, and let the expression have no `defun` in it.  Then no more
evaluations are nested than the lists of the expression and one more: every limit that allows these
gives the same run, and it does not exhaust the limit.  It ends with a value or with an error of the
program, or else the host has just replied with an offset that is too great for a number.  No
function occurs in the values that are bound afterwards, nor in the result. -/
theorem eval_functionless {e : Value} (functionless : e.Functionless) (defunless : e.Defunless)
    {world : World σ} (scope : world.scope.All Value.Functionless) {limit : Nat}
    (enough : e.depth + 1 ≤ limit) :
    let ran := (eval limit e).runOn world
    ran = (eval (e.depth + 1) e).runOn world ∧ ran.1 ≠ .error .exhausted ∧
      ((∃ v, ran.1 = .ok v ∧ v.Functionless) ∨ (∃ cause, ran.1 = .error (.error cause)) ∨
        ran.1 = .error .outOfRange ∧ Host.Overflows ran.2.host) ∧
      ran.2.scope.All Value.Functionless := by
  intro ran
  have least := eval_plain_within (σ := σ) (e.depth + 1)
    ⟨functionless, defunless, Nat.lt_succ_self _⟩ world scope
  have ends : ((eval (e.depth + 1) e).runOn world).1 ≠ .error .exhausted := by
    intro exhausted
    rcases least.stop _ exhausted with ⟨error, same⟩ | ⟨same, -⟩
    · nomatch same
    · nomatch same
  have same : ran = (eval (e.depth + 1) e).runOn world :=
    ((eval_goesOn enough e).runs world).eq_of_ne ends
  rw [same]
  refine ⟨rfl, ends, ?_, least.scope⟩
  cases outcome : ((eval (e.depth + 1) e).runOn world).1 with
  | ok v => exact .inl ⟨v, rfl, least.result v outcome⟩
  | error stop =>
      rcases least.stop stop outcome with ⟨cause, rfl⟩ | ⟨rfl, overflows⟩
      · exact .inr (.inl ⟨cause, rfl⟩)
      · exact .inr (.inr ⟨rfl, overflows⟩)

/-- No function occurs in a value that the global frame binds. -/
theorem Chain.global_functionless : Chain.global.All Value.Functionless := by
  refine List.forall_mem_cons.mpr ⟨.ofPairs fun pair member => ?_, nofun⟩
  obtain ⟨p, -, rfl⟩ := List.mem_map.mp member
  exact Value.functionless_of_atom nofun nofun

/-- Quoted code is bound, taken apart and put together again, five lists deep: a limit of six is
enough, and what is bound then holds no function. -/
theorem eval_functionless_quoted :
    let e : Value := .list [.sym "progn",
      .list [.sym "setq", .sym "x", .list [.sym "quote", .list [.sym "f", .sym "y"]]],
      .list [.sym "let", .list [.list [.sym "y", .list [.sym "car", .sym "x"]]],
        .list [.sym "cons", .sym "y", .sym "x"]]]
    let world : World Page := ⟨Chain.global, Page.blank⟩
    let ran := (eval 6 e).runOn world
    e.depth = 5 ∧ ran.1 = .ok (.list [.sym "f", .sym "f", .sym "y"]) ∧
      ran.2.scope.lookup? "x" = some (.list [.sym "f", .sym "y"]) ∧
      ran.2.scope.All Value.Functionless := by
  intro e world ran
  have functionless : e.Functionless := by
    simp [e, Value.Functionless, Value.occurs_list_iff, Value.occurs_sym_iff]
  have defunless : e.Defunless := by
    simp [e, Value.Defunless, Value.occurs_list_iff, Value.occurs_sym_iff, SpecialForm.name]
  have depth : e.depth = 5 := by decide
  exact ⟨depth, rfl, rfl,
    (eval_functionless functionless defunless Chain.global_functionless
      (depth ▸ Nat.le_refl _)).2.2.2⟩

/-- A request stops the evaluation if nothing can be made of the reply. -/
theorem Plan.runOn_ask_of_none {request : Request} {answer : request.Reply → Option Value}
    {world : World σ} (none : answer (Host.handle request world.host).1 = none) :
    (Plan.run (.ask request answer)).runOn world =
      (.error .outOfRange, { world with host := (Host.handle request world.host).2 }) := by
  rw [runOn_ask, none]

theorem Primitive.runOn_call_point (world : World σ) :
    (Primitive.point.call []).runOn world =
      (Plan.run (.ask .cursor Primitive.position)).runOn world := by
  rw [Primitive.runOn_call]
  rfl

/-- Asking for the cursor calls the primitive. -/
theorem runOn_eval_point (host : σ) :
    (eval 2 (.list [.sym "point"])).runOn ⟨Chain.global, host⟩ =
      (Plan.run (.ask .cursor Primitive.position)).runOn ⟨Chain.global, host⟩ := by
  have found : (eval 1 (.sym "point")).runOn (⟨Chain.global, host⟩ : World σ) =
      (.ok (.prim .point), ⟨Chain.global, host⟩) := rfl
  change (do
    let callee ← eval 1 (.sym "point")
    let args ← evalAll (eval 1) []
    applyTo (eval 1) (.sym "point") callee args).runOn _ = _
  rw [EvalM.runOn_bind, found]
  dsimp only
  rw [evalAll, pure_bind, applyTo, Primitive.runOn_call_point]

/-- A cursor that no number reaches stops the evaluation that asks for it. -/
theorem runOn_eval_point_of_far {page : Page} (far : Number.ofInt? page.cursor = none) :
    ((eval 2 (.list [.sym "point"])).runOn ⟨Chain.global, page⟩).1 = .error .outOfRange := by
  have noReply : Primitive.position (Host.handle .cursor page).1 = none := by
    change Option.map Value.num (Number.ofInt? page.cursor) = none
    rw [far]
    rfl
  rw [runOn_eval_point, Plan.runOn_ask_of_none noReply]

/-- On a page with its cursor at 2¹⁰²⁴, which no number reaches, asking for the cursor gives neither
a value nor an error of the program. -/
theorem eval_functionless_farCursor :
    let e : Value := .list [.sym "point"]
    let world : World Page := ⟨Chain.global, { Page.blank with cursor := Nat.pow 2 1024 }⟩
    let ran := (eval (e.depth + 1) e).runOn world
    e.Functionless ∧ e.Defunless ∧ world.scope.All Value.Functionless ∧
      ran.1 = .error .outOfRange ∧
      ¬ ((∃ v, ran.1 = .ok v) ∨ ∃ cause, ran.1 = .error (.error cause)) := by
  intro e world ran
  have least : e.depth + 1 = 2 := by decide
  have same : ran = (eval 2 e).runOn world :=
    congrArg (fun limit => (eval limit e).runOn world) least
  have stopped : ran.1 = .error .outOfRange := by
    rw [same]
    exact runOn_eval_point_of_far (by decide +kernel)
  refine ⟨?_, ?_, Chain.global_functionless, stopped, ?_⟩
  · simp [e, Value.Functionless, Value.occurs_list_iff, Value.occurs_sym_iff]
  · simp [e, Value.Defunless, Value.occurs_list_iff, Value.occurs_sym_iff, SpecialForm.name]
  · rw [stopped]
    rintro (⟨v, same⟩ | ⟨cause, same⟩)
    · nomatch same
    · nomatch same

end BufferLisp
