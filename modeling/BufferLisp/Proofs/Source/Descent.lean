import BufferLisp.Proofs.Source.Reach

/-!
# Reading by recursive descent

A reader keeps the lists that are open around its position.  Without that, an expression can be read
by two functions that call each other: `descend` reads an expression, and `descendItems` reads items
up to the parenthesis that closes their list.  Nothing in their text says that they come to an end.
An expression need not take up any character, as it does not at a closing parenthesis; items are
read until their list is closed; and a string may go past the end of the text.  So both are given a
number of steps, and have no answer when it is used up.

It is never used up (`Reader.next_eq_descend`): one step more than twice the number of characters is
enough, whatever the text.  Their answer is what the reader reads, and they take up as many
characters as it passes over.  What makes them end is that items are read only where no parenthesis
closes the list, and there an expression does take up a character (`Yields.advances`).
-/

set_option autoImplicit false

namespace BufferLisp

mutual

/-- Reads the expression that the characters start with, and counts the characters that it takes up.
A step is spent on each blank, each quote mark and each expression. -/
def descend : (steps : Nat) → List Char → Option (Except LispError Value × Nat)
  | 0, _ => none
  | _ + 1, [] => some (.ok .nil, 0)
  | steps + 1, c :: cs =>
    if Text.isBlank c then (descend steps cs).map fun (result, n) => (result, n + 1)
    else if c = '"' then
      let width := Token.literalWidth cs
      some (.ok (.str (Token.literalText (cs.take width))), width + 2)
    else if c = '(' then
      (descendItems steps cs).map fun (result, n) => (result.map .list, n + 1)
    else if c = '\'' then
      (descend steps cs).map fun (result, n) => (result.map .quoted, n + 1)
    else
      let name := Token.atomPart (c :: cs)
      some (.ok (Token.atomValue name), name.length)

/-- Reads items up to the parenthesis that closes their list, which is taken up too.  A step is
spent on each blank and each item. -/
def descendItems : (steps : Nat) → List Char → Option (Except LispError (List Value) × Nat)
  | 0, _ => none
  | _ + 1, [] => some (.error .unclosedList, 0)
  | steps + 1, c :: cs =>
    if Text.isBlank c then (descendItems steps cs).map fun (result, n) => (result, n + 1)
    else if c = ')' then some (.ok [], 1)
    else
      match descend steps (c :: cs) with
      | none => none
      | some (.error cause, n) => some (.error cause, n)
      | some (.ok v, n) =>
        (descendItems steps ((c :: cs).drop n)).map fun (result, m) => (result.map (v :: ·), n + m)

end

/-! ## What a text yields -/

/-- What comes of reading: an expression; or blanks and quote marks only, up to a closing
parenthesis or to the end of the text; or the end of the text inside of a list. -/
inductive Yields : List Char → Except LispError Value → Nat → Prop
  | reads {cs : List Char} {v : Value} {n : Nat} (reads : Reads cs v n) : Yields cs (.ok v) n
  | stray {front : List Char} (marks : AreMarks front) (rest : List Char) :
      Yields (front ++ ')' :: rest) (.ok ((Value.sym "").quotedTimes (front.count '\'')))
        front.length
  | ended {cs : List Char} (marks : AreMarks cs) :
      Yields cs (.ok (Value.nil.quotedTimes (cs.count '\''))) cs.length
  | unclosed {cs : List Char} (never : Unclosed cs) :
      Yields cs (.error .unclosedList) (reach (pieces cs))

/-- What comes of reading items: a list that is closed, or the end of the text. -/
inductive YieldsItems : List Char → Except LispError (List Value) → Nat → Prop
  | closed {cs : List Char} {vs : List Value} {n : Nat} (items : ReadsItems cs vs n) :
      YieldsItems cs (.ok vs) n
  | unclosed {cs : List Char} (never : UnclosedItems cs) :
      YieldsItems cs (.error .unclosedList) (reach (pieces cs))

namespace Yields

variable {cs : List Char} {result : Except LispError Value} {n : Nat}

theorem blank {c : Char} (blank : Text.isBlank c = true) (yields : Yields cs result n) :
    Yields (c :: cs) result (n + 1) := by
  cases yields with
  | reads reads => exact .reads (.blank blank reads)
  | @stray front marks rest =>
      have stray := Yields.stray (areMarks_cons.mpr ⟨.inl blank, marks⟩) rest
      rwa [List.count_cons_of_ne (ne_quoteMark blank)] at stray
  | ended marks =>
      have ended := Yields.ended (areMarks_cons.mpr ⟨.inl blank, marks⟩)
      rwa [List.count_cons_of_ne (ne_quoteMark blank)] at ended
  | unclosed never =>
      rw [← reach_single (Piece.reach_mark (.inl blank) cs)]
      refine .unclosed fun last state pos => ?_
      rw [lexemes_blank blank]
      exact never last state (pos + 1)

theorem quote (yields : Yields cs result n) :
    Yields ('\'' :: cs) (result.map .quoted) (n + 1) := by
  cases yields with
  | reads reads => exact .reads (.quote reads)
  | @stray front marks rest =>
      have stray := Yields.stray (areMarks_cons.mpr ⟨.inr rfl, marks⟩) rest
      rwa [List.count_cons_self] at stray
  | ended marks =>
      have ended := Yields.ended (areMarks_cons.mpr ⟨.inr rfl, marks⟩)
      rwa [List.count_cons_self] at ended
  | unclosed never =>
      rw [← reach_single (Piece.reach_mark (.inr rfl) cs)]
      refine .unclosed fun last state pos => ?_
      rw [lexemes_token (n := 0) (by decide) rfl, ReadState.run_cons]
      exact never last _ _

theorem list {items : Except LispError (List Value)} (yields : YieldsItems cs items n) :
    Yields ('(' :: cs) (items.map .list) (n + 1) := by
  cases yields with
  | closed items => exact .reads (.list items)
  | unclosed never =>
      rw [← reach_single (c := '(') rfl]
      refine .unclosed fun last state pos => ?_
      rw [lexemes_token (n := 0) (by decide) rfl, ReadState.run_cons]
      exact never last _ _ 0 _

/-- **Reading takes up some of the text** that is left, except right at a closing parenthesis. -/
theorem advances {c : Char} (notClose : c ≠ ')') (yields : Yields (c :: cs) result n) : 0 < n := by
  generalize text : c :: cs = whole at yields
  cases yields with
  | reads reads => exact reads.width_pos
  | @stray front marks rest =>
      cases front with
      | nil => exact absurd (List.cons.inj text).1 notClose
      | cons a front => exact Nat.succ_pos _
  | ended marks =>
      rw [← text]
      exact Nat.succ_pos _
  | unclosed never =>
      rw [← text]
      exact Nat.lt_of_lt_of_le (Nat.succ_pos _) (length_le_reach (c :: cs))

/-- A list that is never closed takes up all that is left. -/
theorem length_le {cause : LispError} (yields : Yields cs (.error cause) n) : cs.length ≤ n := by
  cases yields with
  | unclosed _ => exact length_le_reach cs

/-- What is read takes up whole pieces. -/
theorem passes (yields : Yields cs result n) : Passes cs n := by
  cases yields with
  | reads reads => exact reads.passes
  | stray marks rest => exact .marks marks (')' :: rest)
  | ended marks =>
      rw [← reach_marks marks]
      exact .all cs
  | unclosed never => exact .all cs

end Yields

/-- A list is closed, or it is not. -/
theorem ReadsItems.not_unclosed {cs : List Char} {vs : List Value} {n : Nat}
    (items : ReadsItems cs vs n) : ¬ UnclosedItems cs := by
  intro never
  have error := never 0 ⟨[], 0⟩ [] 0 0
  rw [ReadState.run_items items] at error
  nomatch error

/-- At its closing parenthesis a list is closed. -/
theorem YieldsItems.of_close {cs : List Char} {items : Except LispError (List Value)} {n : Nat}
    (yields : YieldsItems (')' :: cs) items n) : items = .ok [] ∧ n = 1 := by
  have close := @ReadsItems.close [] areMarks_nil cs
  cases yields with
  | closed items =>
      obtain ⟨rfl, rfl⟩ := items.unique close
      exact ⟨rfl, rfl⟩
  | unclosed never => exact absurd never close.not_unclosed

namespace YieldsItems

variable {cs : List Char} {items : Except LispError (List Value)} {n : Nat}

theorem blank {c : Char} (blank : Text.isBlank c = true) (yields : YieldsItems cs items n) :
    YieldsItems (c :: cs) items (n + 1) := by
  cases yields with
  | closed items => exact .closed (items.blank blank)
  | unclosed never =>
      rw [← reach_single (Piece.reach_mark (.inl blank) cs)]
      refine .unclosed fun last innermost outer quotes pos => ?_
      rw [lexemes_blank blank]
      exact never last innermost outer quotes (pos + 1)

/-- The end of the text comes before the list is closed. -/
theorem nil_iff : YieldsItems [] items n ↔ items = .error .unclosedList ∧ n = 0 := by
  have none : reach (pieces []) = 0 := by
    rw [pieces]
    rfl
  constructor
  · intro yields
    cases yields with
    | closed items => exact absurd items.width_le.2 (Nat.not_le.mpr items.width_le.1)
    | unclosed _ => exact ⟨rfl, none⟩
  · rintro ⟨rfl, rfl⟩
    rw [← none]
    exact .unclosed fun _ _ _ _ _ => rfl

/-- An item that does not end does not close its list. -/
theorem failed {cause : LispError} (first : Yields cs (.error cause) n) :
    YieldsItems cs (.error cause) n := by
  cases first with
  | unclosed never =>
      exact .unclosed fun last innermost outer quotes pos =>
        never last ⟨innermost :: outer, quotes⟩ pos

/-- **An item is read, and then the others.**  If only quote marks are read then they stand before
the closing parenthesis or before the end of the text. -/
theorem cons {c : Char} {v : Value} {m : Nat} (solid : Text.isBlank c = false)
    (notClose : c ≠ ')') (first : Yields (c :: cs) (.ok v) n)
    (others : YieldsItems ((c :: cs).drop n) items m) :
    YieldsItems (c :: cs) (items.map (v :: ·)) (n + m) := by
  generalize text : c :: cs = whole at first others ⊢
  cases first with
  | reads first =>
      cases others with
      | closed others => exact .closed (.cons first others)
      | unclosed never =>
          rw [← first.passes.reach_eq]
          refine .unclosed fun last innermost outer quotes pos => ?_
          rw [ReadState.run_reads first]
          exact never last _ outer 0 _
  | @stray front marks rest =>
      rw [List.drop_left] at others
      obtain ⟨rfl, rfl⟩ := others.of_close
      have some : front.count '\'' ≠ 0 := by
        cases front with
        | nil => exact absurd (List.cons.inj text).1 notClose
        | cons a front =>
            obtain ⟨rfl, -⟩ := List.cons.inj text
            have mark := (areMarks_cons.mp marks).1
            simp [solid] at mark
            simp [mark]
      obtain ⟨k, quotes⟩ := Nat.exists_eq_succ_of_ne_zero some
      have items := ReadsItems.close marks rest
      rw [quotes] at items ⊢
      exact .closed items
  | ended marks =>
      rw [List.drop_length, nil_iff] at others
      obtain ⟨rfl, rfl⟩ := others
      rw [Nat.add_zero, ← reach_marks marks]
      refine .unclosed fun last innermost outer quotes pos => ?_
      rw [← List.append_nil whole, ReadState.run_marks marks]
      rfl

end YieldsItems

/-! ## Enough steps -/

mutual

/-- **With two steps for each character, and one more, the descent comes to what the text yields.**
-/
theorem descend_yields (steps : Nat) (cs : List Char) (enough : 2 * cs.length + 1 ≤ steps) :
    ∃ result n, descend steps cs = some (result, n) ∧ Yields cs result n := by
  match steps, cs with
  | steps + 1, [] => exact ⟨_, _, rfl, .ended areMarks_nil⟩
  | steps + 1, c :: cs =>
      rw [List.length_cons] at enough
      rw [descend]
      by_cases blank : Text.isBlank c = true
      · obtain ⟨result, n, answer, yields⟩ := descend_yields steps cs (by omega)
        rw [if_pos blank, answer]
        exact ⟨_, _, rfl, yields.blank blank⟩
      by_cases quote : c = '"'
      · subst quote
        rw [if_neg blank, if_pos rfl]
        exact ⟨_, _, rfl, .reads (.literal cs)⟩
      by_cases opens : c = '('
      · subst opens
        obtain ⟨items, n, answer, yields⟩ := descendItems_yields steps cs (by omega)
        rw [if_neg blank, if_neg quote, if_pos rfl, answer]
        exact ⟨_, _, rfl, .list yields⟩
      by_cases mark : c = '\''
      · subst mark
        obtain ⟨result, n, answer, yields⟩ := descend_yields steps cs (by omega)
        rw [if_neg blank, if_neg quote, if_neg opens, if_pos rfl, answer]
        exact ⟨_, _, rfl, yields.quote⟩
      rw [if_neg blank, if_neg quote, if_neg opens, if_neg mark]
      refine ⟨_, _, rfl, ?_⟩
      by_cases closes : c = ')'
      · -- Nothing is part of the atom.
        subst closes
        exact @Yields.stray [] areMarks_nil cs
      · have plain : Token.isDelimiter c = false := by
          simp [Token.isDelimiter, blank, opens, closes]
        exact .reads (.atom ⟨plain, mark, quote⟩ cs)

/-- With one step more than that, the descent comes to the items that the text yields. -/
theorem descendItems_yields (steps : Nat) (cs : List Char) (enough : 2 * cs.length + 2 ≤ steps) :
    ∃ items n, descendItems steps cs = some (items, n) ∧ YieldsItems cs items n := by
  match steps, cs with
  | steps + 1, [] => exact ⟨_, _, rfl, YieldsItems.nil_iff.mpr ⟨rfl, rfl⟩⟩
  | steps + 1, c :: cs =>
      rw [List.length_cons] at enough
      rw [descendItems]
      by_cases blank : Text.isBlank c = true
      · obtain ⟨items, n, answer, yields⟩ := descendItems_yields steps cs (by omega)
        rw [if_pos blank, answer]
        exact ⟨_, _, rfl, yields.blank blank⟩
      by_cases closes : c = ')'
      · subst closes
        rw [if_neg blank, if_pos rfl]
        exact ⟨_, _, rfl, .closed (@ReadsItems.close [] areMarks_nil cs)⟩
      rw [if_neg blank, if_neg closes]
      obtain ⟨result, n, answer, first⟩ :=
        descend_yields steps (c :: cs) (by rw [List.length_cons]; omega)
      have advances := first.advances closes
      rw [answer]
      cases result with
      | error cause => exact ⟨_, _, rfl, .failed first⟩
      | ok v =>
          have shorter : 2 * ((c :: cs).drop n).length + 2 ≤ steps := by
            rw [List.length_drop, List.length_cons]
            omega
          obtain ⟨items, m, behind, others⟩ := descendItems_yields steps _ shorter
          dsimp only
          rw [behind]
          exact ⟨_, _, rfl, .cons (by simpa using blank) closes first others⟩

end

/-! ## The reader -/

/-- A reader that fails has run out of lexemes. -/
theorem ReadState.run_of_error {last : Nat} {state : ReadState} {lexemes : List Lexeme}
    {cause : LispError} (error : (run last state lexemes).1 = .error cause) :
    run last state lexemes = (.error cause, last) := by
  induction lexemes generalizing state with
  | nil => exact Prod.ext error rfl
  | cons lexeme rest ih =>
      rw [run_cons] at error ⊢
      cases progress : state.step lexeme with
      | more next =>
          rw [progress] at error
          exact ih error
      | done value stop =>
          rw [progress] at error
          nomatch error

namespace Reader

/-- **A reader reads what its text yields**, and moves over the characters that this takes up. -/
theorem next_of_yields {reader : Reader} {result : Except LispError Value} {n : Nat}
    (yields : Yields (reader.source.toList.drop reader.pos) result n) :
    reader.next = (result, { reader with pos := reader.pos + n }) := by
  generalize text : reader.source.toList.drop reader.pos = cs at yields
  cases yields with
  | reads reads => exact next_of_reads (text ▸ reads)
  | stray marks rest => exact next_of_close marks text
  | ended marks =>
      have run := ReadState.run_marks marks reader.endPos [] 0 reader.pos []
      rw [List.append_nil, ReadState.run_end, Nat.zero_add] at run
      rw [← reach_marks marks, ← text, ← endPos_eq, text]
      unfold next lexemes ReadState.start
      rw [text, run]
  | unclosed never =>
      have run := ReadState.run_of_error (never reader.endPos .start reader.pos)
      rw [← text, ← endPos_eq]
      unfold next lexemes
      rw [text, run]

/-- Whatever a reader has before it yields something. -/
theorem exists_yields (reader : Reader) :
    ∃ result n, Yields (reader.source.toList.drop reader.pos) result n ∧
      reader.next = (result, { reader with pos := reader.pos + n }) := by
  obtain ⟨result, n, -, yields⟩ :=
    descend_yields _ (reader.source.toList.drop reader.pos) (Nat.le_refl _)
  exact ⟨result, n, yields, next_of_yields yields⟩

/-- **Reading ends**: given two steps for each character that is left, and one more, recursive
descent has an answer, and it is what the reader reads and how far it moves. -/
theorem next_eq_descend (reader : Reader) :
    ∃ n, reader.next.2 = { reader with pos := reader.pos + n } ∧
      ∀ steps, 2 * (reader.source.toList.drop reader.pos).length + 1 ≤ steps →
        descend steps (reader.source.toList.drop reader.pos) = some (reader.next.1, n) := by
  obtain ⟨result, n, -, next⟩ := reader.exists_yields
  refine ⟨n, by rw [next], fun steps enough => ?_⟩
  obtain ⟨result, m, answer, yields⟩ := descend_yields steps _ enough
  rw [next_of_yields yields] at next ⊢
  have same : reader.pos + m = reader.pos + n := congrArg (·.2.pos) next
  rw [answer, Nat.add_left_cancel same]

end Reader

end BufferLisp
