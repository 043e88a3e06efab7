import BufferLisp.Proofs.Number.Scientific
import BufferLisp.Proofs.Value.Occurrence

/-!
# Equality of values

Two values are equal if they are built alike: of one kind, with parts that are equal as numbers, as
texts or as primitives, or are alike in turn.  `Alike` says so by one rule for each kind, and a
derivation of it can be turned round and composed.  So equality of values is symmetric and
transitive, and equal values have the same text and are both true or both not
(`equal_partialEquivalence`).

It is not reflexive, because a NaN is equal to nothing.  A value without a NaN is equal to itself,
and one with a NaN in its lists is not.  The body of a function is compared as code, where a NaN is
a constant that is the same as itself; so it is only in lists that a NaN has this effect.
-/

set_option autoImplicit false

namespace BufferLisp

namespace Number

theorem equal_symm {x y : Float} (same : equal x y = true) : equal y x = true := by
  obtain ⟨number, ranks, signs⟩ := equal_iff.mp same
  exact equal_iff.mpr ⟨ranks ▸ number, ranks.symm, signs.symm⟩

theorem equal_trans {x y z : Float} (first : equal x y = true) (second : equal y z = true) :
    equal x z = true := by
  obtain ⟨number, ranks, signs⟩ := equal_iff.mp first
  obtain ⟨-, ranks', signs'⟩ := equal_iff.mp second
  exact equal_iff.mpr ⟨number, ranks.trans ranks', signs.trans signs'⟩

/-- A double is equal to itself exactly if it is a number. -/
theorem equal_self_iff {x : Float} : equal x x = true ↔ isNaN x = false := by
  rw [equal_iff, isNaN, decide_eq_false_iff_not, not_lt]
  exact and_iff_left ⟨rfl, rfl⟩

end Number

namespace Value

/-! ## Alike values -/

mutual

/-- Two values are of one kind and have equal contents; `code` tells whether they are compared as
code. -/
inductive Alike : (code : Bool) → Value → Value → Prop
  | nil {code : Bool} : Alike code .nil .nil
  | bool {code : Bool} (b : Bool) : Alike code (.bool b) (.bool b)
  | num {code : Bool} {x y : Float} (same : Number.equal x y = true) : Alike code (.num x) (.num y)
  | nan (place : Nat) : Alike true (.nan place) (.nan place)
  | str {code : Bool} (s : String) : Alike code (.str s) (.str s)
  | sym {code : Bool} (name : String) : Alike code (.sym name) (.sym name)
  | list {code : Bool} {as bs : List Value} (items : AlikeAll code as bs) :
      Alike code (.list as) (.list bs)
  | fn {code : Bool} (params : List String) {a b : Value} (bodies : Alike true a b) :
      Alike code (.fn params a) (.fn params b)
  | prim {code : Bool} {p q : Primitive} (same : p.operation = q.operation) :
      Alike code (.prim p) (.prim q)

/-- Two lists of values are alike one by one. -/
inductive AlikeAll : (code : Bool) → List Value → List Value → Prop
  | nil {code : Bool} : AlikeAll code [] []
  | cons {code : Bool} {a b : Value} {as bs : List Value} (first : Alike code a b)
      (rest : AlikeAll code as bs) : AlikeAll code (a :: as) (b :: bs)

end

/-- Whether two values are equal, or are the same code. -/
def agree : (code : Bool) → Value → Value → Bool
  | false => equal
  | true => sameCode

/-- Whether two lists of values are equal one by one, or are the same code. -/
def agreeAll : (code : Bool) → List Value → List Value → Bool
  | false => equalAll
  | true => sameCodeAll

theorem agree_list (code : Bool) (as bs : List Value) :
    agree code (.list as) (.list bs) = agreeAll code as bs := by
  cases code <;> rfl

theorem agree_fn (code : Bool) (ps qs : List String) (a b : Value) :
    agree code (.fn ps a) (.fn qs b) = (ps == qs && agree true a b) := by
  cases code <;> rfl

theorem agreeAll_cons (code : Bool) (a b : Value) (as bs : List Value) :
    agreeAll code (a :: as) (b :: bs) = (agree code a b && agreeAll code as bs) := by
  cases code <;> rfl

mutual

/-- Values that agree are alike. -/
theorem alike_of_agree {code : Bool} (a : Value) {b : Value} (same : agree code a b = true) :
    Alike code a b := by
  match a with
  | .nil =>
      cases b with
      | nil => exact .nil
      | _ => cases code <;> nomatch same
  | .bool x =>
      cases b with
      | bool y =>
          obtain rfl : x = y := by cases code <;> exact eq_of_beq same
          exact .bool x
      | _ => cases code <;> nomatch same
  | .num x =>
      cases b with
      | num y => exact .num (by cases code <;> exact same)
      | _ => cases code <;> nomatch same
  | .nan place =>
      cases b with
      | nan other =>
          cases code with
          | false => nomatch same
          | true =>
              obtain rfl : place = other := eq_of_beq same
              exact .nan place
      | _ => cases code <;> nomatch same
  | .str s =>
      cases b with
      | str t =>
          obtain rfl : s = t := by cases code <;> exact eq_of_beq same
          exact .str s
      | _ => cases code <;> nomatch same
  | .sym name =>
      cases b with
      | sym other =>
          obtain rfl : name = other := by cases code <;> exact eq_of_beq same
          exact .sym name
      | _ => cases code <;> nomatch same
  | .list as =>
      cases b with
      | list bs => exact .list (alikeAll_of_agreeAll as (agree_list code as bs ▸ same))
      | _ => cases code <;> nomatch same
  | .fn params body =>
      cases b with
      | fn others other =>
          obtain ⟨names, bodies⟩ := Bool.and_eq_true_iff.mp (agree_fn code .. ▸ same)
          obtain rfl : params = others := eq_of_beq names
          exact .fn params (alike_of_agree body bodies)
      | _ => cases code <;> nomatch same
  | .prim p =>
      cases b with
      | prim q => exact .prim (by cases code <;> exact eq_of_beq same)
      | _ => cases code <;> nomatch same

theorem alikeAll_of_agreeAll {code : Bool} (as : List Value) {bs : List Value}
    (same : agreeAll code as bs = true) : AlikeAll code as bs := by
  match as, bs with
  | [], [] => exact .nil
  | a :: as, b :: bs =>
      obtain ⟨first, rest⟩ := Bool.and_eq_true_iff.mp (agreeAll_cons code .. ▸ same)
      exact .cons (alike_of_agree a first) (alikeAll_of_agreeAll as rest)
  | [], _ :: _ => cases code <;> nomatch same
  | _ :: _, [] => cases code <;> nomatch same

end

mutual

/-- What is alike can be exchanged. -/
theorem Alike.symm {code : Bool} {a b : Value} : Alike code a b → Alike code b a
  | .nil => .nil
  | .bool b => .bool b
  | .num same => .num (Number.equal_symm same)
  | .nan place => .nan place
  | .str s => .str s
  | .sym name => .sym name
  | .list items => .list items.symm
  | .fn params bodies => .fn params bodies.symm
  | .prim same => .prim same.symm

theorem AlikeAll.symm {code : Bool} {as bs : List Value} : AlikeAll code as bs → AlikeAll code bs as
  | .nil => .nil
  | .cons first rest => .cons first.symm rest.symm

end

mutual

theorem Alike.trans {code : Bool} {a b c : Value} : Alike code a b → Alike code b c → Alike code a c
  | .nil, .nil => .nil
  | .bool b, .bool _ => .bool b
  | .num same, .num same' => .num (Number.equal_trans same same')
  | .nan place, .nan _ => .nan place
  | .str s, .str _ => .str s
  | .sym name, .sym _ => .sym name
  | .list items, .list items' => .list (items.trans items')
  | .fn params bodies, .fn _ bodies' => .fn params (bodies.trans bodies')
  | .prim same, .prim same' => .prim (same.trans same')

theorem AlikeAll.trans {code : Bool} {as bs cs : List Value} :
    AlikeAll code as bs → AlikeAll code bs cs → AlikeAll code as cs
  | .nil, .nil => .nil
  | .cons first rest, .cons first' rest' => .cons (first.trans first') (rest.trans rest')

end

mutual

/-- Alike values agree. -/
theorem Alike.agree {code : Bool} {a b : Value} : Alike code a b → Value.agree code a b = true
  | .nil => by cases code <;> rfl
  | .bool b => by cases code <;> exact beq_self_eq_true b
  | .num same => by cases code <;> exact same
  | .nan place => beq_self_eq_true place
  | .str s => by cases code <;> exact beq_self_eq_true s
  | .sym name => by cases code <;> exact beq_self_eq_true name
  | .list items => (agree_list code ..).trans items.agreeAll
  | .fn params bodies => by
      rw [agree_fn, beq_self_eq_true, bodies.agree]
      rfl
  | .prim same => by cases code <;> exact beq_iff_eq.mpr same

theorem AlikeAll.agreeAll {code : Bool} {as bs : List Value} :
    AlikeAll code as bs → Value.agreeAll code as bs = true
  | .nil => by cases code <;> rfl
  | .cons first rest => by
      rw [agreeAll_cons, first.agree, rest.agreeAll]
      rfl

end

/-- **Values are equal exactly if they are alike.** -/
theorem equal_iff_alike {a b : Value} : a.equal b = true ↔ Alike false a b :=
  ⟨@alike_of_agree false a b, Alike.agree⟩

/-! ## Alike to itself -/

/-- The value is not a number, as a result or as a constant. -/
def IsNaN : Value → Prop
  | num x => Number.isNaN x = true
  | nan _ => True
  | _ => False

mutual

/-- No NaN stands in the value, in its lists or in the bodies of its functions. -/
def NaNFree : Value → Prop
  | list items => AllNaNFree items
  | fn _ body => NaNFree body
  | v => ¬ v.IsNaN

/-- No NaN stands in any of the values. -/
def AllNaNFree : List Value → Prop
  | [] => True
  | v :: rest => NaNFree v ∧ AllNaNFree rest

end

mutual

/-- A value without a NaN is alike to itself. -/
theorem Alike.refl {code : Bool} (v : Value) (free : v.NaNFree) : Alike code v v := by
  match v with
  | .nil => exact .nil
  | .bool b => exact .bool b
  | .num x => exact .num (Number.equal_self_iff.mpr (Bool.eq_false_iff.mpr free))
  | .nan _ => exact absurd trivial free
  | .str s => exact .str s
  | .sym name => exact .sym name
  | .list items => exact .list (AlikeAll.refl items free)
  | .fn params body => exact .fn params (Alike.refl body free)
  | .prim p => exact .prim rfl

theorem AlikeAll.refl {code : Bool} (vs : List Value) (free : AllNaNFree vs) :
    AlikeAll code vs vs := by
  match vs with
  | [] => exact .nil
  | v :: vs => exact .cons (Alike.refl v free.1) (AlikeAll.refl vs free.2)

end

theorem AlikeAll.of_mem {code : Bool} {vs : List Value} (all : AlikeAll code vs vs) {v : Value}
    (member : v ∈ vs) : Alike code v v := by
  induction vs with
  | nil => nomatch member
  | cons first rest ih =>
      cases all with
      | cons same others =>
          rcases List.mem_cons.mp member with rfl | member
          · exact same
          · exact ih others member

/-- A value is not equal to itself if a NaN occurs in its lists. -/
theorem not_alike_of_occurs {part v : Value} (nan : part.IsNaN) (occurs : Occurs part v) :
    ¬ Alike false v v := by
  induction occurs with
  | whole =>
      intro same
      cases same with
      | num same => exact absurd nan (Bool.eq_false_iff.mp (Number.equal_self_iff.mp same))
      | _ => exact nan
  | item member _ ih =>
      intro same
      cases same with
      | list items => exact ih (items.of_mem member)

/-! ## What alike values share -/

mutual

/-- Alike values have the same text. -/
theorem Alike.chars {code : Bool} {a b : Value} : Alike code a b → a.chars = b.chars
  | .nil => rfl
  | .bool _ => rfl
  | .num same => Number.chars_eq_of_equal same
  | .nan _ => rfl
  | .str _ => rfl
  | .sym _ => rfl
  | .list items => by rw [chars_list, chars_list, items.charsSpaced]
  | .fn _ _ => rfl
  | .prim _ => rfl

theorem AlikeAll.charsSpaced {code : Bool} {as bs : List Value} :
    AlikeAll code as bs → Value.charsSpaced as = Value.charsSpaced bs
  | .nil => rfl
  | .cons first rest => by
      rw [charsSpaced_cons, charsSpaced_cons, first.chars, rest.charsAfter]

theorem AlikeAll.charsAfter {code : Bool} {as bs : List Value} :
    AlikeAll code as bs → Value.charsAfter as = Value.charsAfter bs
  | .nil => rfl
  | .cons first rest => by
      rw [Value.charsAfter, Value.charsAfter, first.chars, rest.charsAfter]

end

theorem Alike.isTrue {code : Bool} {a b : Value} (same : Alike code a b) :
    a.isTrue = b.isTrue := by
  cases same <;> rfl

/-! ## Equality -/

/-- **Equality of values is a partial equivalence that printing respects.**  It is symmetric and
transitive.  A value without a NaN is equal to itself; one with a NaN in its lists is not.  Equal
values have the same text, and as conditions they are both true or both not. -/
theorem equal_partialEquivalence (a b c : Value) :
    (a.equal b = true → b.equal a = true) ∧
    (a.equal b = true → b.equal c = true → a.equal c = true) ∧
    (a.NaNFree → a.equal a = true) ∧
    (∀ part, part.IsNaN → Occurs part a → a.equal a = false) ∧
    (a.equal b = true → a.print = b.print ∧ a.isTrue = b.isTrue) := by
  simp only [Bool.eq_false_iff, Ne, equal_iff_alike]
  refine ⟨Alike.symm, Alike.trans, Alike.refl a, fun part => not_alike_of_occurs, fun same => ?_⟩
  exact ⟨congrArg String.ofList same.chars, same.isTrue⟩

/-- Zeros with both signs, a constant NaN in code, and one operation under two names; and a NaN in a
list of lists. -/
theorem equal_partialEquivalence_zeros :
    let zero := list [num 0.0, fn ["x"] (nan 3), prim .bufferName]
    let negative := list [num (-0.0), fn ["x"] (nan 3), prim .currentBuffer]
    zero.equal negative = true ∧ negative.equal zero = true ∧ zero.equal zero = true ∧
      zero.print = negative.print ∧
      (fn ["x"] (sym "x")).equal (fn ["x"] (sym "x")) = true ∧
      (list [list [num Number.nan]]).equal (list [list [num Number.nan]]) = false := by
  intro zero negative
  have same : zero.equal negative = true := by decide +kernel
  obtain ⟨symmetric, transitive, -, -, shared⟩ := equal_partialEquivalence zero negative zero
  have turned := symmetric same
  obtain ⟨-, -, reflexive, -⟩ := equal_partialEquivalence (fn ["x"] (sym "x")) nil nil
  obtain ⟨-, -, -, irreflexive, -⟩ :=
    equal_partialEquivalence (list [list [num Number.nan]]) nil nil
  have nan : (num Number.nan).IsNaN := by
    change Number.isNaN Number.nan = true
    decide +kernel
  have inside : Occurs (num Number.nan) (list [list [num Number.nan]]) :=
    .item List.mem_cons_self (.item List.mem_cons_self .whole)
  exact ⟨same, turned, transitive same turned, (shared same).1, reflexive id,
    irreflexive _ nan inside⟩

end Value

end BufferLisp
