import BufferLisp.Host.Recorder
import BufferLisp.Proofs.Eval.Depth

/-!
# A `setq` of several pairs is the sequence of its pairs

A `setq` with many pairs does what a `progn` does that has a `setq` for each pair, whatever stands in
the pairs and however the evaluation ends (`eval_setq_eq_eval_progn`).  The pairs are looked at one
by one, each after those before it have taken effect.  So a `setq` stops exactly if a pair stops
after the pairs before it have been assigned; what is left then is what these have left, and what the
value of the failing pair has done (`PairStops`).  The forms behind the failing pair have no part in
it.

The `progn` has one more evaluation around each value than the `setq`, so it does with a limit
greater by one what the `setq` does, down to the point where the depth runs out.
-/

set_option autoImplicit false

namespace BufferLisp

/-- A `setq` of the given forms. -/
def setqForm (tail : List Value) : Value :=
  .list (.sym SpecialForm.setq.name :: tail)

/-- A `progn` of the given expressions. -/
def prognForm (parts : List Value) : Value :=
  .list (.sym SpecialForm.progn.name :: parts)

/-- One `setq` for each pair of forms; a last form without a partner makes a `setq` by itself. -/
def setqPairs : List Value → List Value
  | [] => []
  | [target] => [setqForm [target]]
  | target :: e :: rest => setqForm [target, e] :: setqPairs rest

variable {σ : Type}

/-! ## Pair by pair -/

namespace SpecialForm

variable {ev : Value → EvalM σ Value}

/-- Forms that are neither a pair for a symbol nor a symbol alone have no symbol in front. -/
theorem ne_sym_of_not_pair {target : Value} {rest : List Value}
    (noPair : ∀ name e behind, target = .sym name → rest = e :: behind → False)
    (noValue : ∀ name, target = .sym name → rest = [] → False) : ∀ name, target ≠ .sym name := by
  intro name same
  cases rest with
  | nil => exact noValue name same rfl
  | cons e behind => exact noPair name e behind same rfl

/-- A target that is no symbol stops the pairs, whatever stands behind it. -/
theorem assignPairs_of_not_symbol {target : Value} (other : ∀ name, target ≠ .sym name)
    (value : Value) (rest : List Value) :
    assignPairs ev value (target :: rest) = malformed (.setqTarget target) := by
  cases target with
  | sym name => exact absurd rfl (other name)
  | _ => rfl

/-- The value before the first pair does not matter if there is one. -/
theorem assignPairs_cons (value other target : Value) (rest : List Value) :
    assignPairs ev value (target :: rest) = assignPairs ev other (target :: rest) := by
  cases target with
  | sym name => cases rest <;> rfl
  | _ => rfl

/-- Pairs are assigned after those before them. -/
theorem assignPairs_append (value : Value) {front : List Value} (whole : front.length % 2 = 0)
    (rest : List Value) :
    assignPairs ev value (front ++ rest) = (do
      let last ← assignPairs ev value front
      assignPairs ev last rest) := by
  fun_induction assignPairs ev value front with
  | case1 value => rw [pure_bind, List.nil_append]
  | case2 value name e behind ih =>
      have whole : behind.length % 2 = 0 := by
        rw [List.length_cons, List.length_cons] at whole
        omega
      simp only [List.cons_append, assignPairs, bind_assoc, ih _ whole]
  | case3 => simp at whole
  | case4 value target behind noPair noValue =>
      exact assignPairs_of_not_symbol (ne_sym_of_not_pair noPair noValue) value (behind ++ rest)

/-- A sequence of single pairs does what all the pairs do. -/
theorem sequence_setqPairs {outer : Value → EvalM σ Value}
    (each : ∀ tail, outer (setqForm tail) = assignPairs ev .nil tail) (value : Value)
    (tail : List Value) :
    sequence outer value (setqPairs tail) = assignPairs ev value tail := by
  fun_induction setqPairs tail generalizing value with
  | case1 => rfl
  | case2 target =>
      calc sequence outer value [setqForm [target]]
          = outer (setqForm [target]) := bind_pure _
        _ = assignPairs ev .nil [target] := each [target]
        _ = assignPairs ev value [target] := assignPairs_cons _ _ _ _
  | case3 target e rest ih =>
      have whole : [target, e].length % 2 = 0 := by simp
      calc sequence outer value (setqForm [target, e] :: setqPairs rest)
          = (do let last ← outer (setqForm [target, e])
                sequence outer last (setqPairs rest)) := rfl
        _ = (do let last ← assignPairs ev .nil [target, e]
                assignPairs ev last rest) := by simp only [each, ih]
        _ = assignPairs ev .nil (target :: e :: rest) :=
              (assignPairs_append .nil whole rest).symm
        _ = assignPairs ev value (target :: e :: rest) := assignPairs_cons _ _ _ _

end SpecialForm

/-! ## Where a `setq` stops -/

/-- The first of the remaining pairs stops, by its shape or in its value. -/
inductive PairStops (ev : Value → EvalM σ Value) (before : World σ) :
    List Value → Stop → World σ → Prop where
  | target {target : Value} (other : ∀ name, target ≠ .sym name) (rest : List Value) :
      PairStops ev before (target :: rest) (.error (.malformed (.setqTarget target))) before
  | missing (name : String) :
      PairStops ev before [.sym name] (.error (.malformed (.setqWithoutValue name))) before
  | value (name : String) {e : Value} {stop : Stop} {after : World σ}
      (stops : (ev e).runOn before = (.error stop, after)) (rest : List Value) :
      PairStops ev before (.sym name :: e :: rest) stop after

namespace SpecialForm

variable {ev : Value → EvalM σ Value}

theorem runOn_of_pairStops {before after : World σ} {rest : List Value} {stop : Stop}
    (stops : PairStops ev before rest stop after) (value : Value) :
    (assignPairs ev value rest).runOn before = (.error stop, after) := by
  cases stops with
  | target other rest =>
      rw [assignPairs_of_not_symbol other]
      rfl
  | missing name => rfl
  | value name stops rest => rw [assignPairs, EvalM.runOn_bind, stops]

/-- **Pairs stop exactly if one of them does after those before it are assigned.** -/
theorem runOn_assignPairs_eq_error_iff {value : Value} {tail : List Value} {world after : World σ}
    {stop : Stop} :
    (assignPairs ev value tail).runOn world = (.error stop, after) ↔
      ∃ front rest last before, tail = front ++ rest ∧ front.length % 2 = 0 ∧
        (assignPairs ev value front).runOn world = (.ok last, before) ∧
        PairStops ev before rest stop after := by
  constructor
  · intro stops
    fun_induction assignPairs ev value tail generalizing world with
    | case1 => cases stops
    | case2 value name e rest ih =>
        rw [EvalM.runOn_bind] at stops
        rcases ran : (ev e).runOn world with ⟨cause | v, between⟩ <;> rw [ran] at stops
        · cases stops
          exact ⟨[], _, value, world, rfl, rfl, rfl, .value name ran rest⟩
        · obtain ⟨front, rest, last, before, rfl, whole, assigned, stops⟩ := ih v stops
          refine ⟨.sym name :: e :: front, rest, last, before, rfl, ?_, ?_, stops⟩
          · rw [List.length_cons, List.length_cons]
            omega
          · rw [assignPairs, EvalM.runOn_bind, ran]
            exact assigned
    | case3 value name =>
        cases stops
        exact ⟨[], _, value, _, rfl, rfl, rfl, .missing name⟩
    | case4 value target rest noPair noValue =>
        cases stops
        have other := ne_sym_of_not_pair noPair noValue
        exact ⟨[], _, value, _, rfl, rfl, rfl, .target other rest⟩
  · rintro ⟨front, rest, last, before, rfl, whole, assigned, stops⟩
    rw [assignPairs_append value whole, EvalM.runOn_bind, assigned]
    exact runOn_of_pairStops stops last

end SpecialForm

/-! ## Evaluation -/

variable [Host σ]

theorem eval_setqForm (limit : Nat) (tail : List Value) :
    eval (limit + 1) (setqForm tail) =
      (SpecialForm.assignPairs (eval limit) .nil tail : EvalM σ Value) := rfl

/-- With one more evaluation around each value, the `progn` does the same. -/
theorem eval_prognForm_setqPairs (limit : Nat) (tail : List Value) :
    (eval (limit + 2) (prognForm (setqPairs tail)) : EvalM σ Value) =
      eval (limit + 1) (setqForm tail) := by
  have each : ∀ tail, (eval (limit + 1) (setqForm tail) : EvalM σ Value) =
      SpecialForm.assignPairs (eval limit) .nil tail := eval_setqForm limit
  exact SpecialForm.sequence_setqPairs each .nil tail

/-- Under one limit the `setq` does what the `progn` does, unless that exhausts the limit. -/
theorem runOn_setqForm_of_progn (limit : Nat) (tail : List Value) (world : World σ)
    (ends : ((eval limit (prognForm (setqPairs tail))).runOn world).1 ≠ .error .exhausted) :
    (eval limit (setqForm tail)).runOn world =
      (eval limit (prognForm (setqPairs tail))).runOn world := by
  match limit with
  | 0 => exact absurd rfl ends
  | 1 =>
      fun_cases setqPairs tail with
      | case1 => rfl
      | case2 => exact absurd rfl ends
      | case3 => exact absurd rfl ends
  | limit + 2 =>
      rw [eval_prognForm_setqPairs] at ends ⊢
      exact ((eval_goesOn (Nat.le_succ (limit + 1)) (setqForm tail)).runs world).eq_of_ne ends

/-- **A `setq` of several pairs is the sequence of its pairs.**  A `progn` with a `setq` for each
pair ends with the same value or stops for the same reason, and leaves the same bindings and the same
host; it takes one more evaluation around each value, and with that it does the same even where the
depth runs out.  The `setq` stops exactly if a pair stops after those before it have been assigned.
Then all that has happened is what these have done, and what the value of the failing pair has
done. -/
theorem eval_setq_eq_eval_progn (limit : Nat) (tail : List Value) (world : World σ) :
    (eval (limit + 2) (prognForm (setqPairs tail))).runOn world =
      (eval (limit + 1) (setqForm tail)).runOn world ∧
    (((eval limit (prognForm (setqPairs tail))).runOn world).1 ≠ .error .exhausted →
      (eval limit (setqForm tail)).runOn world =
        (eval limit (prognForm (setqPairs tail))).runOn world) ∧
    ∀ stop after, (eval (limit + 1) (setqForm tail)).runOn world = (.error stop, after) ↔
      ∃ front rest last before, tail = front ++ rest ∧ front.length % 2 = 0 ∧
        (eval (limit + 1) (setqForm front)).runOn world = (.ok last, before) ∧
        PairStops (eval limit) before rest stop after := by
  refine ⟨?_, runOn_setqForm_of_progn limit tail world, fun stop after => ?_⟩
  · rw [eval_prognForm_setqPairs]
  · exact SpecialForm.runOn_assignPairs_eq_error_iff

/-- The value of the second pair reads the name that the first one assigns, inserts it and fails; the
third pair is odd and is not looked at. -/
theorem eval_setq_eq_eval_progn_halfway :
    let failing : Value := .list [.sym "progn", .list [.sym "insert", .sym "x"], .list [.sym "car"]]
    let tail : List Value := [.sym "x", .str "one", .sym "y", failing, .sym "z"]
    let world : World Page := ⟨Chain.global, Page.blank⟩
    let ran := (eval 6 (setqForm tail)).runOn world
    ran.1 = .error (.error (.tooFewArguments .car 1 0)) ∧ ran.2.host.content = "one" ∧
      ran.2.scope.lookup? "x" = some (.str "one") ∧ ran.2.scope.lookup? "y" = none ∧
      (eval 6 (prognForm (setqPairs tail))).runOn world = ran ∧
      ∃ last before, (eval 6 (setqForm [.sym "x", .str "one"])).runOn world = (.ok last, before) ∧
        PairStops (eval 5) before [.sym "y", failing, .sym "z"]
          (.error (.tooFewArguments .car 1 0)) ran.2 := by
  intro failing tail world ran
  have stopped : ran.1 = .error (.error (.tooFewArguments .car 1 0)) := rfl
  have ends : ((eval 6 (prognForm (setqPairs tail))).runOn world).1 ≠ .error .exhausted := by
    intro exhausted
    have kept : ((eval 6 (prognForm (setqPairs tail))).runOn world).1 = ran.1 := rfl
    exact nomatch (kept.trans stopped).symm.trans exhausted
  refine ⟨stopped, by decide +kernel, rfl, rfl,
    ((eval_setq_eq_eval_progn 6 tail world).2.1 ends).symm, _, _, rfl, ?_⟩
  exact .value "y" rfl _

end BufferLisp
