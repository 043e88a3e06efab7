import BufferLisp.Host.Recorder
import BufferLisp.Proofs.Eval.Bounds
import BufferLisp.Proofs.Value.RoundTrip

/-!
# Answers that are errors

The answer to a text starts with the error mark exactly if reading or evaluating the text has failed
(`Session.evalToText_errorMark_iff`).  The mark has a blank in it, and it starts with a letter.  A
string prints between quotes and a list between parentheses, a number prints without blanks, so the
one value whose text could be mistaken for an error is a symbol with a blank in its name.

There is none.  A symbol that is read has the name of an atom, which has no blank.  No primitive makes
a symbol, and a `defun` returns the symbol that was written in it.  So no symbol anywhere in a session
has a blank in its name: neither in a value that is bound nor in the body of a function nor in a
result, whatever texts were evaluated before and however they ended.
-/

set_option autoImplicit false

namespace BufferLisp

/-! ## Names without blanks -/

namespace Value

mutual

/-- No symbol in the value has a blank in its name, those in the bodies of functions included. -/
def Unbroken : Value → Prop
  | sym name => ∀ c ∈ name.toList, Text.isBlank c = false
  | list items => AllUnbroken items
  | fn _ body => Unbroken body
  | _ => True

/-- No symbol in the values has a blank in its name. -/
def AllUnbroken : List Value → Prop
  | [] => True
  | v :: rest => Unbroken v ∧ AllUnbroken rest

end

theorem allUnbroken_iff {items : List Value} : AllUnbroken items ↔ ∀ v ∈ items, v.Unbroken := by
  induction items with
  | nil => simp [AllUnbroken]
  | cons v rest ih => rw [AllUnbroken, ih, List.forall_mem_cons]

theorem unbroken_sym_of_all {name : String} (all : name.toList.all (!Text.isBlank ·) = true) :
    (sym name).Unbroken := by
  simpa [Unbroken] using all

theorem unbroken_empty : (sym "").Unbroken := unbroken_sym_of_all rfl

theorem Unbroken.quotedTimes {v : Value} (unbroken : v.Unbroken) (quotes : Nat) :
    (v.quotedTimes quotes).Unbroken := by
  induction quotes with
  | zero => exact unbroken
  | succ quotes ih => exact ⟨unbroken_sym_of_all (by decide), ih, trivial⟩

/-! ## What is read -/

theorem unbroken_atomValue (cs : List Char) :
    (Token.atomValue (Token.atomPart cs)).Unbroken := by
  unfold Token.atomValue
  split
  · trivial
  · split
    · trivial
    · split
      · trivial
      · intro c member
        rw [String.toList_ofList] at member
        exact (Token.isBlank_of_not_isDelimiter (Token.isDelimiter_of_mem_atomPart member)).1

mutual

/-- **No symbol that is read has a blank in its name.** -/
theorem unbroken_of_reads {cs : List Char} {v : Value} {n : Nat} (reads : Reads cs v n) :
    v.Unbroken :=
  match reads with
  | .blank _ reads => unbroken_of_reads reads
  | .quote reads => (unbroken_of_reads reads).quotedTimes 1
  | .literal _ => trivial
  | .atom _ cs => unbroken_atomValue (_ :: cs)
  | .list items => unbroken_of_items items

theorem unbroken_of_items {cs : List Char} {vs : List Value} {n : Nat}
    (items : ReadsItems cs vs n) : AllUnbroken vs :=
  match items with
  | @ReadsItems.close front _ _ => by
      cases front.count '\'' with
      | zero => trivial
      | succ quotes => exact ⟨unbroken_empty.quotedTimes (quotes + 1), trivial⟩
  | .cons first rest => ⟨unbroken_of_reads first, unbroken_of_items rest⟩

end

theorem unbroken_of_read {source : String} {v : Value} (value : read source = .ok v) :
    v.Unbroken := by
  have next : (Reader.ofSource source).next = (.ok v, (Reader.ofSource source).next.2) := by
    rw [← value]
    rfl
  rcases Reader.reads_of_next next with ⟨n, reads, -⟩ | ⟨front, rest, -, -, stops⟩
  · exact unbroken_of_reads reads
  · rcases stops with ⟨-, rfl⟩ | ⟨-, rfl⟩
    · exact Unbroken.quotedTimes (v := .nil) trivial _
    · exact unbroken_empty.quotedTimes _

end Value

/-! ## What is printed -/

namespace Session

theorem not_errorMark_of_solid {cs : List Char} (solid : ∀ c ∈ cs, Text.isBlank c = false) :
    ¬ errorMark.toList <+: cs := by
  intro begins
  have blank : ' ' ∈ cs := begins.subset (by decide)
  exact absurd (solid ' ' blank) (by decide)

theorem not_errorMark_of_head {c : Char} (other : c ≠ 'L') (cs : List Char) :
    ¬ errorMark.toList <+: c :: cs := by
  rintro ⟨rest, same⟩
  exact other (List.cons.inj same).1.symm

/-- A value whose names have no blanks does not print as an error. -/
theorem not_errorMark_chars {v : Value} (unbroken : v.Unbroken) :
    ¬ errorMark.toList <+: v.chars := by
  cases v with
  | nil => exact not_errorMark_of_head (by decide) _
  | bool b => cases b <;> exact not_errorMark_of_head (by decide) _
  | num x =>
      refine not_errorMark_of_solid fun c member => ?_
      have starts := startsAtom_of_inText ((Number.inText_chars x).2 c member)
      exact (Token.isBlank_of_not_isDelimiter starts.1).1
  | nan place => exact not_errorMark_of_head (by decide) _
  | str s => exact not_errorMark_of_head (by decide) _
  | sym name => exact not_errorMark_of_solid unbroken
  | list items => exact not_errorMark_of_head (by decide) _
  | fn params body => exact not_errorMark_of_head (by decide) _
  | prim p => exact not_errorMark_of_head (by decide) _

/-! ## What is evaluated -/

variable {σ : Type} [Host σ]

/-- Values with unbroken names, and no bounds on how an evaluation stops. -/
def unbrokenNames (σ : Type) : Bounds σ where
  value := Value.Unbroken
  stop _ _ := True

theorem unbrokenNames_admits :
    (unbrokenNames σ).Admits Value.Unbroken Value.Unbroken where
  error _ _ := trivial
  overflow _ _ := trivial
  nil := trivial
  bool _ := trivial
  num _ := trivial
  str _ := trivial
  list _ := Value.allUnbroken_iff
  constant _ code := code
  quoted _ code := code
  inside _ code := Value.allUnbroken_iff.mp code
  deeper _ code := Value.allUnbroken_iff.mp code
  body _ _ code := code
  defun name params body names code := by
    obtain ⟨-, symbol, -, others⟩ := code
    exact ⟨symbol, Value.unbroken_sym_of_all (by decide), others⟩

theorem evalSource_within (limit : Nat) (source : String) :
    (evalSource limit source : EvalM σ Value).Within (unbrokenNames σ) Value.Unbroken := by
  refine .bind (.ofExcept (fun _ _ => trivial) fun v => Value.unbroken_of_read) ?_
  intro e unbroken
  exact eval_within unbrokenNames_admits (fun _ => trivial) limit unbroken

omit [Host σ] in
theorem start_all (host : σ) : (start host).scope.All Value.Unbroken := by
  refine List.forall_mem_cons.mpr ⟨.ofPairs fun pair member => ?_, nofun⟩
  obtain ⟨p, -, rfl⟩ := List.mem_map.mp member
  trivial

theorem loadPrelude_within (limit : Nat) (code : String) :
    (loadPrelude limit code : EvalM σ Unit).Within (unbrokenNames σ) fun _ => True := by
  unfold loadPrelude
  split
  · exact .pure trivial
  · exact .bind (evalSource_within limit code) fun _ _ => .pure trivial

/-- The world after texts have been evaluated one after the other, whatever came of each. -/
def afterTexts (limit : Nat) (world : World σ) (sources : List String) : World σ :=
  sources.foldl (fun world source => ((evalToText limit source).runOn world).2) world

/-- A text leaves unbroken names, and so does every sequence of texts. -/
theorem afterTexts_all (limit : Nat) {world : World σ} (all : world.scope.All Value.Unbroken)
    (sources : List String) : (afterTexts limit world sources).scope.All Value.Unbroken := by
  induction sources generalizing world with
  | nil => exact all
  | cons source rest ih => exact ih (evalSource_within limit source world all).scope

/-- **An answer starts with the error mark exactly if it tells an error.**  In a session that has
loaded its prelude and evaluated any texts, no symbol has a blank in its name, be it in a value that
is bound or in a result; so a text that is answered is answered with the error mark in front if and
only if reading or evaluating it has failed. -/
theorem evalToText_errorMark_iff (limit : Nat) (host : σ) (code : String) {world : World σ}
    (loaded : (loadPrelude limit code).runOn (start host) = (.ok (), world))
    (earlier : List String) (source : String) :
    let before := afterTexts limit world earlier
    let ran := (evalSource limit source).runOn before
    (∀ text, ((evalToText limit source).runOn before).1 = .ok text →
      (errorMark.toList <+: text.toList ↔ ∃ cause, ran.1 = .error (.error cause))) ∧
    before.scope.All Value.Unbroken ∧ ran.2.scope.All Value.Unbroken ∧
    ∀ v, ran.1 = .ok v → v.Unbroken := by
  intro before ran
  have ready : world.scope.All Value.Unbroken := by
    have held := loadPrelude_within limit code (start host) (start_all host)
    rw [loaded] at held
    exact held.scope
  have all : before.scope.All Value.Unbroken := afterTexts_all limit ready earlier
  have held := evalSource_within limit source before all
  refine ⟨fun text answered => ?_, all, held.scope, held.result⟩
  have answered : answerText ran.1 = .ok text := answered
  -- A value prints without the mark, and an error of the program is told behind it.
  cases outcome : ran.1 with
  | ok v =>
      rw [outcome] at answered
      obtain rfl : v.print = text := Except.ok.inj answered
      have unmarked : ¬ errorMark.toList <+: v.print.toList := by
        rw [Value.print, String.toList_ofList]
        exact not_errorMark_chars (held.result v outcome)
      simp [unmarked]
  | error stop =>
      rw [outcome] at answered
      cases stop with
      | error cause =>
          obtain rfl : errorMark ++ cause.message = text := Except.ok.inj answered
          rw [String.toList_append]
          exact ⟨fun _ => ⟨cause, rfl⟩, fun _ => List.prefix_append _ _⟩
      | exhausted => simp [answerText] at answered
      | outOfRange => simp [answerText] at answered

/-- The prelude defines a function that makes a list with the second word of the mark, and an unclosed
text and a failing one come before.  The first word of the mark is the answer to a name, and it tells
no error; the answer to a list that is not closed does. -/
theorem evalToText_errorMark_iff_words :
    let code := "(defun f (x) (list x 'Error:))"
    let ready := ((loadPrelude 30 code).runOn (start Page.blank)).2
    let earlier := ["(setq a 'Lisp", "(car)", "(setq a (car (f 'Lisp)))"]
    let before := afterTexts 30 ready earlier
    ((evalToText 30 "a ").runOn before).1 = .ok "Lisp" ∧
      (¬ ∃ cause, ((evalSource 30 "a ").runOn before).1 = .error (.error cause)) ∧
      ((evalToText 30 "(f a").runOn before).1 = .ok "Lisp Error: Unclosed list" ∧
      ∃ cause, ((evalSource 30 "(f a").runOn before).1 = .error (.error cause) := by
  intro code ready earlier before
  have ok_of_toOption {α : Type} {a : α} : ∀ {r : Except Stop α}, r.toOption = some a → r = .ok a
    | .ok _, same => congrArg Except.ok (Option.some.inj same)
  have loaded : (loadPrelude 30 code).runOn (start Page.blank) = (.ok (), ready) :=
    Prod.ext (ok_of_toOption (by decide +kernel)) rfl
  have word : ((evalToText 30 "a ").runOn before).1 = .ok "Lisp" :=
    ok_of_toOption (by decide +kernel)
  have unclosed : ((evalToText 30 "(f a").runOn before).1 = .ok "Lisp Error: Unclosed list" :=
    ok_of_toOption (by decide +kernel)
  have marked := fun source =>
    (evalToText_errorMark_iff 30 Page.blank code loaded earlier source).1
  exact ⟨word, fun failed => absurd ((marked "a " _ word).mpr failed) (by decide), unclosed,
    (marked "(f a" _ unclosed).mp (by decide)⟩

end Session

end BufferLisp
