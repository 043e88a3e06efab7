import BufferLisp.Source.Reading

/-!
# The grammar of expressions

`Reads cs v n` says that the characters start with an expression, that its value is `v`, and that it
takes up the first `n` of them, blanks in front included.  Expressions are given by five rules, and
the items of a list by two.  The rules follow the text as it is nested and know nothing of tokens,
open lists or waiting quote marks.

The reader does what the grammar says: at an expression it delivers the value and goes on behind it
(`run_reads`).  Where no expression starts there are only blanks and quote marks, up to a closing
parenthesis or to the end of the text, or a list that is never closed (`reads_cases`).  Therefore
each text has at most one reading.
-/

set_option autoImplicit false

namespace BufferLisp

/-- Blanks and quote marks. -/
def AreMarks (front : List Char) : Prop :=
  ∀ c ∈ front, Text.isBlank c = true ∨ c = '\''

theorem areMarks_nil : AreMarks [] :=
  fun _ member => nomatch member

theorem areMarks_cons {c : Char} {front : List Char} :
    AreMarks (c :: front) ↔ (Text.isBlank c = true ∨ c = '\'') ∧ AreMarks front :=
  List.forall_mem_cons

theorem ne_quoteMark {c : Char} (blank : Text.isBlank c = true) : c ≠ '\'' := by
  rintro rfl
  exact absurd blank (by decide)

/-- Whether a character starts an atom. -/
def StartsAtom (c : Char) : Prop :=
  Token.isDelimiter c = false ∧ c ≠ '\'' ∧ c ≠ '"'

instance (c : Char) : Decidable (StartsAtom c) :=
  inferInstanceAs (Decidable (Token.isDelimiter c = false ∧ c ≠ '\'' ∧ c ≠ '"'))

/-- What quote marks in front of a closing parenthesis stand for. -/
def dangling : (quotes : Nat) → List Value
  | 0 => []
  | quotes + 1 => [(Value.sym "").quotedTimes (quotes + 1)]

mutual

/-- The characters start with an expression of the given value and width. -/
inductive Reads : List Char → Value → Nat → Prop
  | blank {c : Char} {cs : List Char} {v : Value} {n : Nat} (blank : Text.isBlank c = true)
      (reads : Reads cs v n) : Reads (c :: cs) v (n + 1)
  | quote {cs : List Char} {v : Value} {n : Nat} (reads : Reads cs v n) :
      Reads ('\'' :: cs) v.quoted (n + 1)
  | literal (cs : List Char) :
      Reads ('"' :: cs) (.str (Token.literalText (cs.take (Token.literalWidth cs))))
        (Token.literalWidth cs + 2)
  | atom {c : Char} (starts : StartsAtom c) (cs : List Char) :
      Reads (c :: cs) (Token.atomValue (Token.atomPart (c :: cs)))
        (Token.atomPart (c :: cs)).length
  | list {cs : List Char} {vs : List Value} {n : Nat} (items : ReadsItems cs vs n) :
      Reads ('(' :: cs) (.list vs) (n + 1)

/-- The characters start with items and the parenthesis that closes their list. -/
inductive ReadsItems : List Char → List Value → Nat → Prop
  | close {front : List Char} (marks : AreMarks front) (cs : List Char) :
      ReadsItems (front ++ ')' :: cs) (dangling (front.count '\'')) (front.length + 1)
  | cons {cs : List Char} {v : Value} {vs : List Value} {n m : Nat} (first : Reads cs v n)
      (rest : ReadsItems (cs.drop n) vs m) : ReadsItems cs (v :: vs) (n + m)

end

/-! ## Lexemes -/

/-- Passing over characters is dropping them. -/
theorem lexemes_skip (skip pos : Nat) (cs : List Char) :
    lexemes skip pos cs = lexemes 0 (pos + skip) (cs.drop skip) := by
  induction cs generalizing skip pos with
  | nil => simp [lexemes]
  | cons c cs ih =>
      cases skip with
      | zero => rfl
      | succ skip =>
          rw [lexemes, ih, List.drop_succ_cons, Nat.add_assoc, Nat.add_comm 1 skip]

theorem lexemes_blank {c : Char} (blank : Text.isBlank c = true) (pos : Nat) (cs : List Char) :
    lexemes 0 pos (c :: cs) = lexemes 0 (pos + 1) cs := by
  rw [lexemes, if_pos blank]

/-- A token is followed by the lexemes behind it. -/
theorem lexemes_token {c : Char} {cs : List Char} {token : Token} {n : Nat}
    (solid : Text.isBlank c = false) (starts : Token.starting c cs = (token, n + 1)) (pos : Nat) :
    lexemes 0 pos (c :: cs) =
      ⟨token, pos, pos + (n + 1)⟩ :: lexemes 0 (pos + (n + 1)) (cs.drop n) := by
  rw [lexemes, solid, starts]
  simp only [Bool.false_eq_true, if_false, Nat.add_sub_cancel]
  rw [lexemes_skip, Nat.add_assoc, Nat.add_comm 1 n]

namespace Token

theorem starting_literal (cs : List Char) :
    starting '"' cs = (literal (cs.take (literalWidth cs)), literalWidth cs + 2) := rfl

/-- An atom takes up at least the character that it starts with. -/
theorem atomPart_cons {c : Char} (starts : isDelimiter c = false) (cs : List Char) :
    atomPart (c :: cs) = c :: atomPart cs := by
  rw [atomPart, List.takeWhile_cons_of_pos (by simp [starts])]
  rfl

/-- A text that ends an atom before it. -/
def EndsAtom (rest : List Char) : Prop :=
  ∀ c ∈ rest.head?, isDelimiter c = true

/-- An atom is read up to the text that ends it. -/
theorem atomPart_append {name rest : List Char} (plain : ∀ c ∈ name, isDelimiter c = false)
    (ends : EndsAtom rest) : atomPart (name ++ rest) = name := by
  unfold atomPart
  rw [List.takeWhile_append_of_pos fun c member => by simp [plain c member]]
  cases rest with
  | nil => simp
  | cons c rest =>
      have delimiter := ends c rfl
      rw [List.takeWhile_cons_of_neg (by simp [delimiter]), List.append_nil]

theorem isDelimiter_of_mem_atomPart {c : Char} {cs : List Char} (member : c ∈ atomPart cs) :
    isDelimiter c = false := by
  simpa using List.all_eq_true.mp List.all_takeWhile c member

theorem isBlank_of_not_isDelimiter {c : Char} (starts : isDelimiter c = false) :
    Text.isBlank c = false ∧ c ≠ '(' ∧ c ≠ ')' := by
  simpa [isDelimiter, and_assoc] using starts

theorem starting_atom {c : Char} (starts : StartsAtom c) (cs : List Char) :
    starting c cs = (atom (atomPart (c :: cs)), (atomPart (c :: cs)).length) := by
  obtain ⟨plain, notQuote, notString⟩ := starts
  obtain ⟨-, notOpen, notClose⟩ := isBlank_of_not_isDelimiter plain
  simp [starting, notOpen, notClose, notQuote, notString]

end Token

/-! ## The reader follows the grammar -/

theorem Value.quotedTimes_quoted (v : Value) (quotes : Nat) :
    v.quoted.quotedTimes quotes = v.quotedTimes (quotes + 1) := by
  induction quotes with
  | zero => rfl
  | succ quotes ih =>
      rw [quotedTimes, ih]
      rfl

namespace ReadState

/-- Goes on from what a token has led to. -/
def proceed (last : Nat) (progress : Progress) (rest : List Lexeme) : Except LispError Value × Nat :=
  match progress with
  | .more next => run last next rest
  | .done value stop => (.ok value, stop)

theorem run_cons (last : Nat) (state : ReadState) (lexeme : Lexeme) (rest : List Lexeme) :
    run last state (lexeme :: rest) = proceed last (state.step lexeme) rest := rfl

/-- The items of a closed list, those of quote marks last. -/
theorem closedItems_eq (innermost : OpenList) (quotes : Nat) :
    closedItems innermost quotes = innermost.items.reverse ++ dangling quotes := by
  cases quotes with
  | zero => simp [closedItems, dangling]
  | succ quotes => simp [closedItems, dangling]

/-- Marks in front are counted. -/
theorem run_marks {front : List Char} (marks : AreMarks front) (last : Nat)
    (lists : List OpenList) (quotes pos : Nat) (cs : List Char) :
    run last ⟨lists, quotes⟩ (lexemes 0 pos (front ++ cs)) =
      run last ⟨lists, quotes + front.count '\''⟩ (lexemes 0 (pos + front.length) cs) := by
  induction front generalizing quotes pos with
  | nil => rfl
  | cons c front ih =>
      obtain ⟨mark, others⟩ := areMarks_cons.mp marks
      have ih := ih others
      rw [List.cons_append, List.length_cons, ← Nat.add_assoc, Nat.add_right_comm]
      rcases mark with blank | rfl
      · rw [lexemes_blank blank, ih, List.count_cons_of_ne (ne_quoteMark blank)]
      · rw [lexemes_token (n := 0) (by decide) rfl, run_cons]
        simp only [step, proceed, Nat.zero_add, List.drop_zero]
        rw [ih, List.count_cons_self, Nat.add_assoc, Nat.add_comm 1]

/-- The end of the text reads as `nil`. -/
theorem run_end (last quotes pos : Nat) :
    run last ⟨[], quotes⟩ (lexemes 0 pos []) = (.ok (Value.nil.quotedTimes quotes), last) := rfl

/-- A closing parenthesis outside of all lists reads as the symbol with the empty name. -/
theorem run_stray (last quotes pos : Nat) (cs : List Char) :
    run last ⟨[], quotes⟩ (lexemes 0 pos (')' :: cs)) =
      (.ok ((Value.sym "").quotedTimes quotes), pos) := rfl

mutual

/-- **At an expression the reader delivers its value and goes on behind it.** -/
theorem run_reads {cs : List Char} {v : Value} {n : Nat} (reads : Reads cs v n) (last : Nat)
    (lists : List OpenList) (quotes pos : Nat) :
    run last ⟨lists, quotes⟩ (lexemes 0 pos cs) =
      proceed last (deliver lists (v.quotedTimes quotes) (pos + n))
        (lexemes 0 (pos + n) (cs.drop n)) :=
  match reads with
  | .blank (n := n) blank reads => by
      rw [lexemes_blank blank, run_reads reads, List.drop_succ_cons, Nat.add_assoc, Nat.add_comm 1 n]
  | .quote (n := n) reads => by
      rw [lexemes_token (n := 0) (by decide) rfl, run_cons]
      simp only [step, proceed, Nat.zero_add, List.drop_zero]
      rw [run_reads reads, Value.quotedTimes_quoted, List.drop_succ_cons, Nat.add_assoc,
        Nat.add_comm 1 n]
      rfl
  | .literal cs => by
      rw [lexemes_token (by decide) (Token.starting_literal cs), run_cons]
      rfl
  | .atom (c := c) starts cs => by
      have width : (Token.atomPart (c :: cs)).length = (Token.atomPart cs).length + 1 := by
        rw [Token.atomPart_cons starts.1, List.length_cons]
      rw [lexemes_token (Token.isBlank_of_not_isDelimiter starts.1).1
        ((Token.starting_atom starts cs).trans (by rw [width])), run_cons, width]
      rfl
  | .list (n := n) items => by
      rw [lexemes_token (n := 0) (by decide) rfl, run_cons]
      simp only [step, proceed, Nat.zero_add, List.drop_zero]
      rw [run_items items, List.drop_succ_cons, Nat.add_assoc, Nat.add_comm 1 n]
      rfl

/-- Behind the items of a list and its closing parenthesis the reader delivers the list. -/
theorem run_items {cs : List Char} {vs : List Value} {n : Nat} (reads : ReadsItems cs vs n)
    (last : Nat) (items : List Value) (quotes : Nat) (outer : List OpenList) (pos : Nat) :
    run last ⟨⟨items, quotes⟩ :: outer, 0⟩ (lexemes 0 pos cs) =
      proceed last (deliver outer ((Value.list (items.reverse ++ vs)).quotedTimes quotes) (pos + n))
        (lexemes 0 (pos + n) (cs.drop n)) :=
  match reads with
  | .close marks cs => by
      rw [run_marks marks, lexemes_token (n := 0) (by decide) rfl, run_cons]
      simp only [step, closedItems_eq, Nat.zero_add, List.drop_zero, Nat.add_assoc]
      rw [← List.drop_drop, List.drop_left, List.drop_one, List.tail_cons]
  | .cons first rest => by
      rw [run_reads first]
      simp only [deliver, proceed, Value.quotedTimes]
      rw [run_items rest, List.drop_drop, Nat.add_assoc, List.reverse_cons, List.append_assoc]
      rfl

end

end ReadState

/-! ## What a reading starts with -/

/-- A list is read from its items. -/
theorem Reads.items {cs : List Char} {w : Value} {n : Nat} (reads : Reads ('(' :: cs) w n) :
    ∃ ws m, w = .list ws ∧ n = m + 1 ∧ ReadsItems cs ws m := by
  generalize text : '(' :: cs = whole at reads
  cases reads with
  | blank blank _ =>
      obtain ⟨rfl, -⟩ := List.cons.inj text
      exact absurd blank (by decide)
  | quote _ => exact absurd (List.cons.inj text).1 (by decide)
  | literal _ => exact absurd (List.cons.inj text).1 (by decide)
  | atom starts _ =>
      obtain ⟨rfl, -⟩ := List.cons.inj text
      exact absurd starts (by decide)
  | list items =>
      obtain ⟨-, rfl⟩ := List.cons.inj text
      exact ⟨_, _, rfl, rfl, items⟩

/-- A blank in front of an expression is passed over. -/
theorem Reads.tail {c : Char} {cs : List Char} {w : Value} {n : Nat}
    (blank : Text.isBlank c = true) (reads : Reads (c :: cs) w n) :
    ∃ m, Reads cs w m ∧ n = m + 1 := by
  cases reads with
  | blank _ reads => exact ⟨_, reads, rfl⟩
  | quote _ => exact absurd rfl (ne_quoteMark blank)
  | literal _ => exact absurd blank (by decide)
  | atom starts _ =>
      rw [(Token.isBlank_of_not_isDelimiter starts.1).1] at blank
      nomatch blank
  | list _ => exact absurd blank (by decide)

/-- A blank in front of items is passed over. -/
theorem ReadsItems.tail {c : Char} {cs : List Char} {ws : List Value} {n : Nat}
    (blank : Text.isBlank c = true) (items : ReadsItems (c :: cs) ws n) :
    ∃ m, ReadsItems cs ws m := by
  generalize text : c :: cs = whole at items
  cases items with
  | @close front marks after =>
      cases front with
      | nil =>
          obtain ⟨rfl, -⟩ := List.cons.inj text
          exact absurd blank (by decide)
      | cons d front =>
          obtain ⟨rfl, rfl⟩ := List.cons.inj text
          rw [List.count_cons_of_ne (ne_quoteMark blank)]
          exact ⟨_, .close (areMarks_cons.mp marks).2 after⟩
  | cons first rest =>
      subst text
      obtain ⟨m, behind, rfl⟩ := first.tail blank
      exact ⟨_, .cons behind rest⟩

/-- Items may be read behind a blank. -/
theorem ReadsItems.blank {c : Char} {cs : List Char} {vs : List Value} {n : Nat}
    (blank : Text.isBlank c = true) (items : ReadsItems cs vs n) :
    ReadsItems (c :: cs) vs (n + 1) := by
  cases items with
  | @close front marks cs =>
      have items := ReadsItems.close (areMarks_cons.mpr ⟨.inl blank, marks⟩) cs
      rwa [List.count_cons_of_ne (ne_quoteMark blank)] at items
  | cons first rest =>
      rw [Nat.add_right_comm]
      exact .cons (.blank blank first) rest

/-! ## Where no expression starts -/

/-- There is nothing to read but blanks and quote marks, up to a closing parenthesis or the end. -/
def Stalls (cs : List Char) : Prop :=
  ∃ front rest, AreMarks front ∧ (rest = [] ∨ ∃ after, rest = ')' :: after) ∧ cs = front ++ rest

theorem Stalls.cons {c : Char} {cs : List Char} (mark : Text.isBlank c = true ∨ c = '\'')
    (stalls : Stalls cs) : Stalls (c :: cs) := by
  obtain ⟨front, rest, marks, stop, rfl⟩ := stalls
  exact ⟨c :: front, rest, areMarks_cons.mpr ⟨mark, marks⟩, stop, rfl⟩

/-- From here the reader comes to the end of the text with a list that is not closed. -/
def Unclosed (cs : List Char) : Prop :=
  ∀ (last : Nat) (state : ReadState) (pos : Nat),
    (ReadState.run last state (lexemes 0 pos cs)).1 = .error .unclosedList

/-- From inside a list the reader comes to the end of the text before a list is closed. -/
def UnclosedItems (cs : List Char) : Prop :=
  ∀ (last : Nat) (innermost : OpenList) (outer : List OpenList) (quotes pos : Nat),
    (ReadState.run last ⟨innermost :: outer, quotes⟩ (lexemes 0 pos cs)).1 = .error .unclosedList

/-- An expression takes up some of the text. -/
theorem Reads.drop_length_lt {cs : List Char} {v : Value} {n : Nat} (reads : Reads cs v n) :
    (cs.drop n).length < cs.length := by
  have shorter : ∀ (c : Char) (cs : List Char) (k : Nat),
      ((c :: cs).drop (k + 1)).length < (c :: cs).length := by
    intro c cs k
    rw [List.drop_succ_cons, List.length_drop, List.length_cons]
    omega
  cases reads with
  | blank _ _ => exact shorter _ _ _
  | quote _ => exact shorter _ _ _
  | literal cs => exact shorter _ _ _
  | atom starts cs =>
      rw [Token.atomPart_cons starts.1, List.length_cons]
      exact shorter _ _ _
  | list _ => exact shorter _ _ _

theorem Reads.width_pos {cs : List Char} {v : Value} {n : Nat} (reads : Reads cs v n) : 0 < n := by
  have shorter := reads.drop_length_lt
  rw [List.length_drop] at shorter
  omega

/-- The parenthesis that closes a list is part of the text. -/
theorem ReadsItems.width_le {cs : List Char} {vs : List Value} {n : Nat} :
    ReadsItems cs vs n → 0 < n ∧ n ≤ cs.length
  | .close marks cs => by simp
  | .cons first rest => by
      have width := rest.width_le
      rw [List.length_drop] at width
      omega

/-- An item before others, or before the end of its list, is not cut off by the end of the text. -/
theorem ReadsItems.within {cs : List Char} {vs : List Value} {n m : Nat}
    (items : ReadsItems (cs.drop n) vs m) : n ≤ cs.length := by
  have width := items.width_le
  rw [List.length_drop] at width
  omega

mutual

/-- Every text starts with an expression, or with nothing to read, or with a list that is never
closed. -/
theorem reads_cases (cs : List Char) : (∃ v n, Reads cs v n) ∨ Stalls cs ∨ Unclosed cs := by
  match cs with
  | [] => exact .inr (.inl ⟨[], [], areMarks_nil, .inl rfl, rfl⟩)
  | c :: cs =>
    cases blank : Text.isBlank c with
    | true =>
        rcases reads_cases cs with ⟨v, n, reads⟩ | stalls | unclosed
        · exact .inl ⟨v, n + 1, .blank blank reads⟩
        · exact .inr (.inl (stalls.cons (.inl blank)))
        · right; right
          intro last state pos
          rw [lexemes_blank blank]
          exact unclosed last state (pos + 1)
    | false =>
        by_cases opens : c = '('
        · subst opens
          rcases items_cases cs with ⟨vs, n, items⟩ | unclosed
          · exact .inl ⟨.list vs, n + 1, .list items⟩
          · right; right
            intro last state pos
            rw [lexemes_token (n := 0) blank rfl, ReadState.run_cons]
            exact unclosed last _ _ 0 _
        · by_cases closes : c = ')'
          · subst closes
            exact .inr (.inl ⟨[], _, areMarks_nil, .inr ⟨cs, rfl⟩, rfl⟩)
          · by_cases quotes : c = '\''
            · subst quotes
              rcases reads_cases cs with ⟨v, n, reads⟩ | stalls | unclosed
              · exact .inl ⟨v.quoted, n + 1, .quote reads⟩
              · exact .inr (.inl (stalls.cons (.inr rfl)))
              · right; right
                intro last state pos
                rw [lexemes_token (n := 0) blank rfl, ReadState.run_cons]
                exact unclosed last _ _
            · by_cases literal : c = '"'
              · subst literal
                exact .inl ⟨_, _, .literal cs⟩
              · refine .inl ⟨_, _, .atom ⟨?_, quotes, literal⟩ cs⟩
                simp [Token.isDelimiter, blank, opens, closes]
termination_by (cs.length, 0)

/-- Every text starts with items and the parenthesis that closes their list, or no list around them
is ever closed. -/
theorem items_cases (cs : List Char) : (∃ vs n, ReadsItems cs vs n) ∨ UnclosedItems cs := by
  rcases reads_cases cs with ⟨v, n, reads⟩ | ⟨front, rest, marks, stop, rfl⟩ | unclosed
  · have shorter : cs.length - n < cs.length := by simpa using reads.drop_length_lt
    rcases items_cases (cs.drop n) with ⟨vs, m, items⟩ | unclosed
    · exact .inl ⟨v :: vs, n + m, .cons reads items⟩
    · right
      intro last innermost outer quotes pos
      rw [ReadState.run_reads reads]
      exact unclosed last _ outer 0 _
  · rcases stop with rfl | ⟨after, rfl⟩
    · right
      intro last innermost outer quotes pos
      rw [ReadState.run_marks marks]
      rfl
    · exact .inl ⟨_, _, .close marks after⟩
  · exact .inr fun last innermost outer quotes pos => unclosed last _ pos
termination_by (cs.length, 1)

end

/-! ## Reading a text -/

/-- A reader that stands at an expression reads it. -/
theorem Reader.next_of_reads {reader : Reader} {v : Value} {n : Nat}
    (reads : Reads (reader.source.toList.drop reader.pos) v n) :
    reader.next = (.ok v, { reader with pos := reader.pos + n }) := by
  unfold Reader.next Reader.lexemes ReadState.start
  rw [ReadState.run_reads reads]
  rfl

/-- An expression at the start of a text is what is read from it. -/
theorem read_of_reads {source : String} {v : Value} {n : Nat} (reads : Reads source.toList v n) :
    read source = .ok v := by
  rw [read, @Reader.next_of_reads (Reader.ofSource source) v n reads]

/-- **What a reader reads is given by the grammar**, unless it stands before marks only. -/
theorem Reader.reads_of_next {reader after : Reader} {v : Value}
    (next : reader.next = (.ok v, after)) :
    (∃ n, Reads (reader.source.toList.drop reader.pos) v n ∧
        after = { reader with pos := reader.pos + n }) ∨
      ∃ front rest, AreMarks front ∧ reader.source.toList.drop reader.pos = front ++ rest ∧
        (rest = [] ∧ v = Value.nil.quotedTimes (front.count '\'') ∨
          (∃ cs, rest = ')' :: cs) ∧ v = (Value.sym "").quotedTimes (front.count '\'')) := by
  rcases reads_cases (reader.source.toList.drop reader.pos) with
    ⟨w, n, reads⟩ | ⟨front, rest, marks, stop, text⟩ | unclosed
  · rw [next_of_reads reads] at next
    obtain ⟨rfl, rfl⟩ : w = v ∧ _ = after := by simpa using next
    exact .inl ⟨n, reads, rfl⟩
  · refine .inr ⟨front, rest, marks, text, ?_⟩
    unfold Reader.next Reader.lexemes ReadState.start at next
    rw [text, ReadState.run_marks marks] at next
    rcases stop with rfl | ⟨cs, rfl⟩
    · rw [ReadState.run_end, Nat.zero_add] at next
      exact .inl ⟨rfl, (Except.ok.inj (Prod.mk.inj next).1).symm⟩
    · rw [ReadState.run_stray, Nat.zero_add] at next
      exact .inr ⟨⟨cs, rfl⟩, (Except.ok.inj (Prod.mk.inj next).1).symm⟩
  · have error := congrArg Prod.fst next
    exact absurd ((unclosed _ _ _).symm.trans error) (by simp)

/-- A text has one reading. -/
theorem Reads.unique {cs : List Char} {v w : Value} {n m : Nat} (left : Reads cs v n)
    (right : Reads cs w m) : v = w ∧ n = m := by
  have left := ReadState.run_reads left 0 [] 0 0
  rw [ReadState.run_reads right 0 [] 0 0] at left
  simpa [ReadState.deliver, ReadState.proceed, Value.quotedTimes, eq_comm] using left

/-- The items of a list have one reading. -/
theorem ReadsItems.unique {cs : List Char} {vs ws : List Value} {n m : Nat}
    (left : ReadsItems cs vs n) (right : ReadsItems cs ws m) : vs = ws ∧ n = m := by
  have left := ReadState.run_items left 0 [] 0 [] 0
  rw [ReadState.run_items right 0 [] 0 [] 0] at left
  simpa [ReadState.deliver, ReadState.proceed, Value.quotedTimes, eq_comm] using left

end BufferLisp
