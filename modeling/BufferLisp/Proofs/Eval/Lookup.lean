import BufferLisp.Host.Recorder
import BufferLisp.Proofs.Eval.Congruence

/-!
# Evaluation sees its scope through lookup only

How the bindings in scope are spread over frames makes no difference to an evaluation, nor do
bindings that are shadowed.  If two chains give every name the same value then an expression has the
same result in both, and does the same to the host.  If the second chain gives values to more names
then this still holds, unless the evaluation in the first stops at one of those names for lack of a
value.  Afterwards the chains are again related as they were.

Both cases are instances of one relation, `Chain.AgreesUnless`, in which certain names are allowed
to be missing from the first chain: all of them, or none.
-/

set_option autoImplicit false

namespace BufferLisp

/-! ## Chains that agree -/

/-- Two chains give every name the same value, except that some names may be missing in the
first. -/
def Chain.AgreesUnless (missing : String → Prop) (small large : Chain) : Prop :=
  ∀ name, small.lookup? name = large.lookup? name ∨ missing name ∧ small.lookup? name = none

namespace Chain.AgreesUnless

variable {missing : String → Prop} {small large : Chain}

/-- What the first chain resolves, the second resolves alike. -/
theorem of_resolves
    (resolves : ∀ name value, small.lookup? name = some value → large.lookup? name = some value) :
    small.AgreesUnless (fun _ => True) large := by
  intro name
  cases found : small.lookup? name with
  | none => exact .inr ⟨trivial, rfl⟩
  | some value => exact .inl (resolves name value found).symm

theorem resolves (agrees : small.AgreesUnless missing large) {name : String} {value : Value}
    (found : small.lookup? name = some value) : large.lookup? name = some value := by
  rcases agrees name with same | ⟨-, absent⟩
  · exact same ▸ found
  · rw [absent] at found
    nomatch found

/-- With no name missing, every name has the same value in both chains. -/
theorem eq (agrees : small.AgreesUnless (fun _ => False) large) (name : String) :
    small.lookup? name = large.lookup? name :=
  (agrees name).resolve_right fun absent => absent.1

/-- Writing goes to the current frame of either chain, where nothing shadows it. -/
theorem set (agrees : small.AgreesUnless missing large) (name : String) (value : Value) :
    (small.set name value).AgreesUnless missing (large.set name value) := by
  intro other
  rw [lookup?_set, lookup?_set]
  split
  · exact .inl rfl
  · exact agrees other

theorem enter (agrees : small.AgreesUnless missing large) (frame : Frame) :
    (small.enter frame).AgreesUnless missing (large.enter frame) := by
  intro name
  rw [lookup?_enter, lookup?_enter]
  cases frame.get? name with
  | some value => exact .inl rfl
  | none => exact agrees name

end Chain.AgreesUnless

/-! ## Evaluations that agree -/

variable {σ α β : Type} {missing : String → Prop}

/-- Two runs end alike in chains that agree, or the first stops at a missing name. -/
inductive EvalM.EndsAlike (missing : String → Prop) :
    Except Stop α × World σ → Except Stop α × World σ → Prop where
  | same {result : Except Stop α} {small large : Chain} {host : σ}
      (agrees : small.AgreesUnless missing large) :
      EndsAlike missing (result, ⟨small, host⟩) (result, ⟨large, host⟩)
  | unbound {name : String} (absent : missing name) (after : World σ)
      (other : Except Stop α × World σ) :
      EndsAlike missing (.error (.error (.unbound name)), after) other

namespace EvalM.EndsAlike

variable {inSmall inLarge : Except Stop α × World σ}

theorem of_bound (alike : EndsAlike missing inSmall inLarge)
    (bound : ∀ name, inSmall.1 ≠ .error (.error (.unbound name))) :
    inLarge.1 = inSmall.1 ∧ inLarge.2.host = inSmall.2.host ∧
      ∀ name value, inSmall.2.scope.lookup? name = some value →
        inLarge.2.scope.lookup? name = some value := by
  cases alike with
  | same agrees => exact ⟨rfl, rfl, fun _ _ => agrees.resolves⟩
  | unbound => exact absurd rfl (bound _)

theorem of_none_missing (alike : EndsAlike (fun _ => False) inSmall inLarge) :
    inLarge.1 = inSmall.1 ∧ inLarge.2.host = inSmall.2.host ∧
      ∀ name, inLarge.2.scope.lookup? name = inSmall.2.scope.lookup? name := by
  cases alike with
  | same agrees => exact ⟨rfl, rfl, fun name => (agrees.eq name).symm⟩
  | unbound absent => exact absent.elim

end EvalM.EndsAlike

variable [Host σ]

/-- Two evaluations end alike whenever they start on one host in chains that agree. -/
structure EvalM.Agree (missing : String → Prop) (left right : EvalM σ α) : Prop where
  left_does : left.Does Session.anyName
  right_does : right.Does Session.anyName
  alike : ∀ {small large : Chain} (host : σ), small.AgreesUnless missing large →
    EvalM.EndsAlike missing (left.runOn ⟨small, host⟩) (right.runOn ⟨large, host⟩)

namespace EvalM.Agree

/-- An evaluation that has nothing to do with the scope agrees with itself. -/
theorem of_scope_unused {action : EvalM σ α} (does : action.Does Session.anyName)
    (unused : ∀ (host : σ), ∃ (result : Except Stop α) (after : σ), ∀ scope,
      action.runOn ⟨scope, host⟩ = (result, ⟨scope, after⟩)) : Agree missing action action where
  left_does := does
  right_does := does
  alike host agrees := by
    obtain ⟨result, after, runs⟩ := unused host
    rw [runs, runs]
    exact .same agrees

/-- A name has the same value in both chains, or it is one of the missing names. -/
theorem lookup (name : String) :
    Agree missing (EvalM.lookup name : EvalM σ Value) (EvalM.lookup name) where
  left_does := .lookup name
  right_does := .lookup name
  alike {small large} host agrees := by
    rw [runOn_lookup, runOn_lookup, Chain.lookup, Chain.lookup]
    rcases agrees name with same | ⟨absent, none⟩
    · rw [same]
      exact .same agrees
    · rw [none]
      exact .unbound absent _ _

theorem assign (name : String) (value : Value) :
    Agree missing (EvalM.assign name value : EvalM σ Unit) (EvalM.assign name value) where
  left_does := .assign trivial value
  right_does := .assign trivial value
  alike _ agrees := .same (agrees.set name value)

theorem bind {left right : EvalM σ α} {nextLeft nextRight : α → EvalM σ β}
    (first : Agree missing left right) (second : ∀ a, Agree missing (nextLeft a) (nextRight a)) :
    Agree missing (left >>= nextLeft) (right >>= nextRight) where
  left_does := .bind first.left_does fun a => (second a).left_does
  right_does := .bind first.right_does fun a => (second a).right_does
  alike {small large} host agrees := by
    have alike := first.alike host agrees
    rw [runOn_bind, runOn_bind]
    generalize left.runOn _ = ranLeft at alike ⊢
    generalize right.runOn _ = ranRight at alike ⊢
    cases alike with
    | unbound absent => exact .unbound absent _ _
    | @same result small large host agrees =>
        cases result with
        | error stop => exact .same agrees
        | ok a => exact (second a).alike host agrees

/-- The frame of a call is left again, so the chains that remain are those from before. -/
theorem inFrame (frame : Frame) {left right : EvalM σ α} (inside : Agree missing left right) :
    Agree missing (EvalM.inFrame frame left) (EvalM.inFrame frame right) where
  left_does := .inFrame frame inside.left_does
  right_does := .inFrame frame inside.right_does
  alike {small large} host agrees := by
    have alike := inside.alike host (agrees.enter frame)
    have leftRestored := (inside.left_does ⟨small.enter frame, host⟩).scope_leave ⟨small, host⟩
    have rightRestored := (inside.right_does ⟨large.enter frame, host⟩).scope_leave ⟨large, host⟩
    rw [runOn_inFrame, runOn_inFrame]
    dsimp only at leftRestored rightRestored ⊢
    generalize left.runOn _ = ranLeft at alike leftRestored ⊢
    generalize right.runOn _ = ranRight at alike rightRestored ⊢
    cases alike with
    | unbound absent => exact .unbound absent _ _
    | same =>
        rw [leftRestored, rightRestored]
        exact .same agrees

end EvalM.Agree

/-- Agreement is respected by the ways of building an evaluation. -/
def EvalM.agreement (σ : Type) [Host σ] (missing : String → Prop) : EvalM.Congruence σ σ where
  rel := Agree missing
  pure a := .of_scope_unused (.pure a) fun host => ⟨.ok a, host, fun _ => rfl⟩
  stop cause := .of_scope_unused (.stop cause) fun host => ⟨.error cause, host, fun _ => rfl⟩
  bind := .bind
  lookup := .lookup
  assign := .assign
  ask request := .of_scope_unused (.ask request) fun host =>
    ⟨.ok (Host.handle request host).1, (Host.handle request host).2, fun _ => rfl⟩
  inFrame := .inFrame

/-- An expression ends alike in chains that agree. -/
theorem eval_endsAlike (limit : Nat) (e : Value) (host : σ) {small large : Chain}
    (agrees : small.AgreesUnless missing large) :
    EvalM.EndsAlike missing ((eval limit e).runOn ⟨small, host⟩)
      ((eval limit e).runOn ⟨large, host⟩) := by
  have agree : EvalM.Agree missing (eval limit e : EvalM σ Value) (eval limit e) :=
    (EvalM.agreement σ missing).eval limit e
  exact agree.alike host agrees

/-! ## Adding definitions -/

/-- Binds the names of the pairs in the current frame, one after the other. -/
def Chain.setAll (chain : Chain) (pairs : List (String × Value)) : Chain :=
  pairs.foldl (fun chain pair => chain.set pair.1 pair.2) chain

theorem Chain.lookup?_setAll (chain : Chain) (pairs : List (String × Value)) {name : String}
    (other : ∀ pair ∈ pairs, name ≠ pair.1) :
    (chain.setAll pairs).lookup? name = chain.lookup? name := by
  induction pairs generalizing chain with
  | nil => rfl
  | cons pair rest ih =>
      have others : ∀ later ∈ rest, name ≠ later.1 := fun later member =>
        other later (by simp [member])
      rw [setAll, List.foldl_cons, ← setAll, ih _ others, lookup?_set,
        if_neg (other pair (by simp))]

/-- What a chain resolves, it resolves alike after other names have been bound. -/
theorem Chain.resolves_setAll (chain : Chain) {pairs : List (String × Value)}
    (fresh : ∀ pair ∈ pairs, chain.lookup? pair.1 = none) {name : String} {value : Value}
    (found : chain.lookup? name = some value) :
    (chain.setAll pairs).lookup? name = some value := by
  rw [lookup?_setAll, found]
  rintro pair member rfl
  rw [fresh pair member] at found
  nomatch found

/-- **An evaluation depends on its scope only by what names mean there.**  If a second chain gives
the same value to every name that the first one resolves, then an expression that does not fail for
an unbound name in the first chain has the same result in the second, leaves the same host, and
leaves chains that are related in the same way.  If both chains resolve the same names, this holds
however the evaluation ends.  So binding names that were unbound does not change an evaluation that
has not missed them. -/
theorem eval_eq_of_resolves (limit : Nat) (e : Value) (host : σ) {small large : Chain}
    (resolves : ∀ name value, small.lookup? name = some value →
      large.lookup? name = some value) :
    let inSmall := (eval limit e).runOn ⟨small, host⟩
    let inLarge := (eval limit e).runOn ⟨large, host⟩
    ((∀ name, inSmall.1 ≠ .error (.error (.unbound name))) →
      inLarge.1 = inSmall.1 ∧ inLarge.2.host = inSmall.2.host ∧
        ∀ name value, inSmall.2.scope.lookup? name = some value →
          inLarge.2.scope.lookup? name = some value) ∧
    ((∀ name, (large.lookup? name).isSome = (small.lookup? name).isSome) →
      inLarge.1 = inSmall.1 ∧ inLarge.2.host = inSmall.2.host ∧
        ∀ name, inLarge.2.scope.lookup? name = inSmall.2.scope.lookup? name) ∧
    ((∀ name, inSmall.1 ≠ .error (.error (.unbound name))) →
      ∀ pairs : List (String × Value), (∀ pair ∈ pairs, small.lookup? pair.1 = none) →
        let defined := (eval limit e).runOn ⟨small.setAll pairs, host⟩
        defined.1 = inSmall.1 ∧ defined.2.host = inSmall.2.host) := by
  intro inSmall inLarge
  refine ⟨fun bound => ?_, fun exactly => ?_, fun bound pairs fresh => ?_⟩
  · have alike := eval_endsAlike limit e host (.of_resolves resolves)
    exact alike.of_bound bound
  · have agrees : small.AgreesUnless (fun _ => False) large := by
      intro name
      left
      cases found : small.lookup? name with
      | some value => exact (resolves name value found).symm
      | none =>
          have absent := exactly name
          rw [found] at absent
          exact (Option.not_isSome_iff_eq_none.mp (by simp [absent])).symm
    have alike := eval_endsAlike limit e host agrees
    exact alike.of_none_missing
  · have alike := eval_endsAlike limit e host
      (.of_resolves fun _ _ found => small.resolves_setAll fresh found)
    exact ⟨(alike.of_bound bound).1, (alike.of_bound bound).2.1⟩

/-- The second chain has fewer frames, no shadowed binding, and a name more: a program that uses
neither cannot tell. -/
theorem eval_eq_of_resolves_shadowed :
    let insert : Value := .list [.sym "insert", .sym "x"]
    let binding : Value := .list [.sym "x", .list [.sym "list", .sym "x"]]
    let e : Value := .list [.sym "let", .list [binding], insert]
    let small := (Chain.global.enter ⟨[("x", .str "hidden")]⟩).enter ⟨[("x", .str "a")]⟩
    let large := (Chain.global.set "x" (.str "a")).set "y" .nil
    (∀ name value, small.lookup? name = some value → large.lookup? name = some value) ∧
    ((eval 9 e).runOn ⟨small, Page.blank⟩).1 = .ok .nil ∧
    ((eval 9 e).runOn ⟨small, Page.blank⟩).2.host.content = "(\"a\")" ∧
    ((eval 9 e).runOn ⟨large, Page.blank⟩).1 = .ok .nil ∧
    ((eval 9 e).runOn ⟨large, Page.blank⟩).2.host.content = "(\"a\")" := by
  intro insert binding e small large
  have resolves : ∀ name value, small.lookup? name = some value →
      large.lookup? name = some value := by
    intro name value found
    by_cases isX : name = "x"
    · subst isX
      exact found
    · by_cases isY : name = "y"
      · subst isY
        exact nomatch (show (none : Option Value) = some value from found)
      · rw [Chain.lookup?_set, if_neg isY, Chain.lookup?_set, if_neg isX]
        rw [Chain.lookup?_enter, Chain.lookup?_enter] at found
        have differs : (name == "x") = false := by simpa using isX
        simpa [Frame.get?, List.lookup_cons, differs] using found
  have ends : ((eval 9 e).runOn ⟨small, Page.blank⟩).1 = .ok .nil := rfl
  have shows : ((eval 9 e).runOn ⟨small, Page.blank⟩).2.host.content = "(\"a\")" := by
    decide +kernel
  obtain ⟨result, host, -⟩ := (eval_eq_of_resolves 9 e Page.blank resolves).1
    (fun name => by rw [ends]; exact nofun)
  exact ⟨resolves, ends, shows, result.trans ends, (congrArg Page.content host).trans shows⟩

end BufferLisp
