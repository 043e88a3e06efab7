import BufferLisp.Proofs.Source.Grammar
import BufferLisp.Proofs.Source.Literal

/-!
# Where a list ends

Cut a text, from left to right, into blanks, parentheses, quote marks, strings and atoms (`pieces`),
and let the depth go up by one at each opening parenthesis and down by one at each closing one.  The
list that the text starts with ends where the depth first is back at zero (`extent`).  The reader
agrees: it fails exactly if the depth never comes back, and otherwise it stops right there
(`Reader.next_iff_extent`).

The reader keeps a stack of open lists and the depth is only a number.  One token changes the height
of the stack as it changes the depth (`ReadState.step_change`), and the reader is done with a list
when the stack is empty.  So over a whole text both come to the same place (`ReadState.run_agrees`).
-/

set_option autoImplicit false

namespace BufferLisp

/-! ## Pieces -/

/-- A piece of a text. -/
inductive Piece where
  | blank (c : Char)
  | opening
  | closing
  | mark
  /-- A string; `body` is all that stands behind the opening quote, the closing one included. -/
  | string (body : List Char)
  | atom (name : List Char)
  deriving Repr, DecidableEq

namespace Piece

/-- The characters of a piece. -/
def chars : Piece → List Char
  | blank c => [c]
  | opening => ['(']
  | closing => [')']
  | mark => ['\'']
  | string body => '"' :: body
  | atom name => name

/-- The number of characters of a piece. -/
def width (piece : Piece) : Nat :=
  piece.chars.length

/-- By how much a piece moves the depth. -/
def change : Piece → Int
  | opening => 1
  | closing => -1
  | _ => 0

/-- How far the token of a piece reaches: to the end of the piece, or past the end of the text if
that cuts off a string. -/
def reach : Piece → Nat
  | string body => Token.literalWidth body + 2
  | piece => piece.width

/-- What belongs to a string behind its opening quote: all up to the next quote that is not the
second half of a pair with a backslash, or up to the end of the text. -/
def stringBody : List Char → List Char
  | [] => []
  | '\\' :: d :: rest => '\\' :: d :: stringBody rest
  | '"' :: _ => ['"']
  | c :: rest => c :: stringBody rest

/-- The piece that a text starts with. -/
def first (c : Char) (rest : List Char) : Piece :=
  if Text.isBlank c then blank c
  else if c = '(' then opening
  else if c = ')' then closing
  else if c = '\'' then mark
  else if c = '"' then string (stringBody rest)
  else atom (c :: rest.takeWhile (!Token.isDelimiter ·))

end Piece

/-- The pieces of a text, from left to right. -/
def pieces : List Char → List Piece
  | [] => []
  | c :: rest => Piece.first c rest :: pieces (rest.drop ((Piece.first c rest).width - 1))
termination_by cs => cs.length
decreasing_by
  rw [List.length_drop, List.length_cons]
  omega

/-- The number of characters up to the end of the piece with which the depth first is zero, if it
starts from the given one. -/
def extent : (depth : Int) → List Piece → Option Nat
  | _, [] => none
  | depth, piece :: rest =>
    if depth + piece.change = 0 then some piece.width
    else (extent (depth + piece.change) rest).map (piece.width + ·)

theorem pieces_cons (c : Char) (rest : List Char) :
    pieces (c :: rest) =
      Piece.first c rest :: pieces (rest.drop ((Piece.first c rest).width - 1)) := by
  rw [pieces]

/-! ## Pieces and tokens -/

namespace Piece

/-- A string ends with the literal that starts where it does, or both reach the end of the text. -/
theorem stringBody_cases (cs : List Char) :
    (stringBody cs).length = Token.literalWidth cs + 1 ∨
      stringBody cs = cs ∧ cs.length ≤ Token.literalWidth cs := by
  induction cs using Token.literalInduction with
  | nil => exact .inr ⟨rfl, Nat.le_refl _⟩
  | lone => exact .inr ⟨rfl, by decide⟩
  | skip d cs ih =>
      rw [stringBody, Token.literalWidth_skip]
      rcases ih with closed | ⟨all, cut⟩
      · left
        simp only [List.length_cons, closed]
      · right
        rw [all]
        exact ⟨rfl, by simpa using cut⟩
  | quote cs => exact .inl rfl
  | other c cs plain inside ih =>
      rw [stringBody.eq_4 c cs (fun _ _ backslash _ => plain backslash) inside,
        Token.literalWidth_cons plain inside]
      rcases ih with closed | ⟨all, cut⟩
      · left
        rw [List.length_cons, closed]
      · right
        rw [all]
        exact ⟨rfl, by simpa using cut⟩

/-- What belongs to a string is the beginning of the text behind its quote. -/
theorem stringBody_append_drop (cs : List Char) :
    stringBody cs ++ cs.drop (stringBody cs).length = cs := by
  fun_induction stringBody cs with
  | case1 => rfl
  | case2 d rest ih => simpa using ih
  | case3 rest => rfl
  | case4 c rest plain inside ih => simpa using ih

/-- The first piece is the beginning of the text. -/
theorem chars_append_drop (c : Char) (rest : List Char) :
    (first c rest).chars ++ rest.drop ((first c rest).width - 1) = c :: rest := by
  fun_cases first c rest with
  | case1 blank => rfl
  | case2 solid opens => rw [opens]; rfl
  | case3 solid notOpen closes => rw [closes]; rfl
  | case4 solid notOpen notClose mark => rw [mark]; rfl
  | case5 solid notOpen notClose notMark quote =>
      rw [quote]
      exact congrArg ('"' :: ·) (stringBody_append_drop rest)
  | case6 solid notOpen notClose notMark notQuote =>
      have parts := List.takeWhile_prefix (l := rest) (!Token.isDelimiter ·)
      exact congrArg (c :: ·) (List.prefix_iff_eq_append.mp parts)

/-- What stands behind a string makes no difference to how far its token reaches. -/
theorem literalWidth_stringBody (cs : List Char) :
    Token.literalWidth (stringBody cs) = Token.literalWidth cs := by
  induction cs using Token.literalInduction with
  | nil => rfl
  | lone => rfl
  | skip d cs ih => rw [stringBody, Token.literalWidth_skip, Token.literalWidth_skip, ih]
  | quote cs => rfl
  | other c cs plain inside ih =>
      rw [stringBody.eq_4 c cs (fun _ _ backslash _ => plain backslash) inside,
        Token.literalWidth_cons plain inside, Token.literalWidth_cons plain inside, ih]

theorem first_atom {c : Char} (starts : StartsAtom c) (rest : List Char) :
    first c rest = atom (c :: Token.atomPart rest) := by
  obtain ⟨plain, notMark, notQuote⟩ := starts
  obtain ⟨solid, notOpen, notClose⟩ := Token.isBlank_of_not_isDelimiter plain
  simp [first, solid, notOpen, notClose, notMark, notQuote, Token.atomPart]

/-- A parenthesis reaches to its end. -/
theorem reach_of_change {piece : Piece} (moves : piece.change ≠ 0) : piece.reach = piece.width := by
  cases piece with
  | string body => exact absurd rfl moves
  | _ => rfl

end Piece

/-- By how much a token moves the depth. -/
def Token.change : Token → Int
  | openList => 1
  | closeList => -1
  | _ => 0

/-- Behind a string the lexemes are those behind its literal. -/
theorem lexemes_string (pos : Nat) (cs : List Char) :
    lexemes 0 (pos + (Token.literalWidth cs + 2)) (cs.drop (Token.literalWidth cs + 1)) =
      lexemes 0 (pos + ((Piece.stringBody cs).length + 1))
        (cs.drop (Piece.stringBody cs).length) := by
  rcases Piece.stringBody_cases cs with closed | ⟨all, cut⟩
  · rw [closed]
  · rw [all, List.drop_length, List.drop_of_length_le (by omega)]
    rfl

/-- A piece that is not blank is a token, which moves the depth as the piece does. -/
theorem lexemes_first {c : Char} (solid : Text.isBlank c = false) (rest : List Char) (pos : Nat) :
    ∃ token,
      lexemes 0 pos (c :: rest) = ⟨token, pos, pos + (Piece.first c rest).reach⟩ ::
        lexemes 0 (pos + (Piece.first c rest).width)
          (rest.drop ((Piece.first c rest).width - 1)) ∧
      token.change = (Piece.first c rest).change := by
  by_cases opens : c = '('
  · subst opens
    exact ⟨_, lexemes_token (n := 0) solid rfl pos, rfl⟩
  by_cases closes : c = ')'
  · subst closes
    exact ⟨_, lexemes_token (n := 0) solid rfl pos, rfl⟩
  by_cases mark : c = '\''
  · subst mark
    exact ⟨_, lexemes_token (n := 0) solid rfl pos, rfl⟩
  by_cases quote : c = '"'
  · subst quote
    have behind := lexemes_token solid (Token.starting_literal rest) pos
    rw [lexemes_string, ← Piece.literalWidth_stringBody] at behind
    exact ⟨_, behind, rfl⟩
  · have plain : Token.isDelimiter c = false := by
      simp [Token.isDelimiter, solid, opens, closes]
    have starts : StartsAtom c := ⟨plain, mark, quote⟩
    have token := Token.starting_atom starts rest
    rw [Token.atomPart_cons starts.1, List.length_cons] at token
    rw [Piece.first_atom starts]
    exact ⟨_, lexemes_token solid token pos, rfl⟩

/-! ## The stack and the count -/

/-- A list behind quote marks is a list. -/
theorem Value.quotedTimes_list (vs : List Value) (quotes : Nat) :
    ∃ items, (Value.list vs).quotedTimes quotes = .list items := by
  cases quotes with
  | zero => exact ⟨vs, rfl⟩
  | succ quotes => exact ⟨_, rfl⟩

namespace ReadState

/-- **Inside of lists, a token changes the number of open lists as it changes the depth**, and the
reader is done exactly if none is left open. -/
theorem step_change {state : ReadState} (inside : state.lists ≠ []) (lexeme : Lexeme) :
    (∃ next, state.step lexeme = .more next ∧ next.lists ≠ [] ∧
        (next.lists.length : Int) = state.lists.length + lexeme.token.change) ∨
      ∃ items, state.step lexeme = .done (.list items) lexeme.stop ∧
        state.lists.length + lexeme.token.change = 0 := by
  obtain ⟨lists, quotes⟩ := state
  obtain ⟨token, start, stop⟩ := lexeme
  obtain ⟨innermost, outer, rfl⟩ := List.exists_cons_of_ne_nil inside
  cases token with
  | openList => exact .inl ⟨_, rfl, List.cons_ne_nil _ _, rfl⟩
  | quoteMark => exact .inl ⟨_, rfl, List.cons_ne_nil _ _, (Int.add_zero _).symm⟩
  | literal raw => exact .inl ⟨_, rfl, List.cons_ne_nil _ _, (Int.add_zero _).symm⟩
  | atom name => exact .inl ⟨_, rfl, List.cons_ne_nil _ _, (Int.add_zero _).symm⟩
  | closeList =>
      cases outer with
      | nil =>
          obtain ⟨items, list⟩ :=
            Value.quotedTimes_list (closedItems innermost quotes) innermost.quotes
          refine .inr ⟨items, ?_, rfl⟩
          rw [← list]
          rfl
      | cons second outer =>
          refine .inl ⟨_, rfl, List.cons_ne_nil _ _, ?_⟩
          simp only [Token.change, List.length_cons]
          omega

/-- What a count of the characters up to depth zero says about a reading from a position. -/
def Agrees (pos : Nat) : Option Nat → Except LispError Value × Nat → Prop
  | none, outcome => outcome.1 = .error .unclosedList
  | some n, outcome => ∃ items, outcome = (.ok (.list items), pos + n)

theorem Agrees.map {pos width : Nat} {count : Option Nat} {outcome : Except LispError Value × Nat}
    (agrees : Agrees (pos + width) count outcome) : Agrees pos (count.map (width + ·)) outcome := by
  cases count with
  | none => exact agrees
  | some n =>
      obtain ⟨items, same⟩ := agrees
      exact ⟨items, by rw [same, Nat.add_assoc]⟩

theorem Agrees.unclosed_iff {pos : Nat} {count : Option Nat}
    {outcome : Except LispError Value × Nat} (agrees : Agrees pos count outcome) :
    outcome.1 = .error .unclosedList ↔ count = none := by
  cases count with
  | none => exact iff_of_true agrees rfl
  | some n =>
      obtain ⟨items, rfl⟩ := agrees
      exact iff_of_false (fun error => nomatch error) (fun never => nomatch never)

/-- **From inside of lists, the reader goes on to where the depth is zero**, or fails if it never
is. -/
theorem run_agrees (cs : List Char) {lists : List OpenList} (inside : lists ≠ [])
    (last quotes pos : Nat) :
    Agrees pos (extent lists.length (pieces cs)) (run last ⟨lists, quotes⟩ (lexemes 0 pos cs)) := by
  have height : (lists.length : Int) ≠ 0 := by simpa using inside
  induction cs using pieces.induct generalizing lists quotes pos with
  | case1 =>
      obtain ⟨innermost, outer, rfl⟩ := List.exists_cons_of_ne_nil inside
      rw [pieces]
      rfl
  | case2 c rest ih =>
      rw [pieces_cons, extent]
      cases blank : Text.isBlank c with
      | true =>
          have piece : Piece.first c rest = .blank c := by rw [Piece.first, if_pos blank]
          rw [piece] at ih ⊢
          have level : (lists.length : Int) + (Piece.blank c).change = lists.length :=
            Int.add_zero _
          rw [level, if_neg height, lexemes_blank blank]
          exact (ih inside quotes (pos + 1) height).map
      | false =>
          obtain ⟨token, text, change⟩ := lexemes_first blank rest pos
          rw [text, run_cons, ← change]
          rcases @step_change ⟨lists, quotes⟩ inside
            ⟨token, pos, pos + (Piece.first c rest).reach⟩ with
            ⟨next, step, inside, level⟩ | ⟨items, step, level⟩
          · have above : (next.lists.length : Int) ≠ 0 := by simpa using inside
            rw [step, if_neg (level ▸ above), ← level]
            exact (ih inside next.quotes _ above).map
          · have closes : token.change ≠ 0 := by
              intro still
              rw [still, Int.add_zero] at level
              exact height level
            rw [step, if_pos level]
            exact ⟨items, by rw [← Piece.reach_of_change (change ▸ closes)]; rfl⟩

/-- From outside of lists, the same holds if a list starts right here. -/
theorem run_agrees_list (rest : List Char) (last quotes pos : Nat) :
    Agrees pos (extent 0 (pieces ('(' :: rest)))
      (run last ⟨[], quotes⟩ (lexemes 0 pos ('(' :: rest))) := by
  have piece : Piece.first '(' rest = .opening := rfl
  rw [pieces_cons, piece, extent, if_neg (by decide), lexemes_token (n := 0) (by decide) rfl,
    run_cons]
  exact (run_agrees rest (List.cons_ne_nil ⟨[], quotes⟩ []) last 0 (pos + 1)).map

/-- From outside of lists, whatever does not start a list is read. -/
theorem run_ok_of_ne {c : Char} (solid : Text.isBlank c = false) (notMark : c ≠ '\'')
    (notOpen : c ≠ '(') (rest : List Char) (last quotes pos : Nat) :
    ∃ v, (run last ⟨[], quotes⟩ (lexemes 0 pos (c :: rest))).1 = .ok v := by
  by_cases closes : c = ')'
  · subst closes
    exact ⟨_, congrArg Prod.fst (run_stray last quotes pos rest)⟩
  · have reads : ∃ v n, Reads (c :: rest) v n := by
      by_cases quote : c = '"'
      · subst quote
        exact ⟨_, _, .literal rest⟩
      · have plain : Token.isDelimiter c = false := by
          simp [Token.isDelimiter, solid, notOpen, closes]
        exact ⟨_, _, .atom ⟨plain, notMark, quote⟩ rest⟩
    obtain ⟨v, n, reads⟩ := reads
    exact ⟨_, congrArg Prod.fst (run_reads reads last [] quotes pos)⟩

end ReadState

/-! ## Reading -/

/-- The text behind the blanks and quote marks that it starts with. -/
def dropMarks (cs : List Char) : List Char :=
  cs.dropWhile fun c => Text.isBlank c || c == '\''

/-- What is dropped are marks, and what is left starts with none. -/
theorem dropMarks_spec (cs : List Char) :
    ∃ front, AreMarks front ∧ cs = front ++ dropMarks cs ∧
      ∀ c ∈ (dropMarks cs).head?, Text.isBlank c = false ∧ c ≠ '\'' := by
  refine ⟨cs.takeWhile fun c => Text.isBlank c || c == '\'', ?_, ?_, ?_⟩
  · intro c member
    simpa using List.all_eq_true.mp List.all_takeWhile c member
  · exact List.takeWhile_append_dropWhile.symm
  · intro c head
    have stop := List.head?_dropWhile_not (fun c => Text.isBlank c || c == '\'') cs
    rw [dropMarks] at head
    rw [head] at stop
    simpa using stop

/-- A reader at an opening parenthesis comes to where the depth is zero, or fails if it never is. -/
theorem Reader.next_agrees {source : String} {i : Nat} (opens : source.toList[i]? = some '(') :
    ReadState.Agrees i (extent 0 (pieces (source.toList.drop i)))
      ((Reader.mk source i).next.1, (Reader.mk source i).next.2.pos) := by
  obtain ⟨inside, here⟩ := List.getElem?_eq_some_iff.mp opens
  have tail : source.toList.drop i = '(' :: source.toList.drop (i + 1) := by
    rw [← here]
    exact List.drop_eq_getElem_cons inside
  have agrees :=
    ReadState.run_agrees_list (source.toList.drop (i + 1)) (Reader.mk source i).endPos 0 i
  rw [← tail] at agrees
  exact agrees

/-- A reader at an opening parenthesis reads a list up to where the depth is zero. -/
theorem Reader.next_of_extent {source : String} {i n : Nat} (opens : source.toList[i]? = some '(')
    (count : extent 0 (pieces (source.toList.drop i)) = some n) :
    ∃ items, (Reader.mk source i).next = (.ok (.list items), ⟨source, i + n⟩) := by
  have agrees := next_agrees opens
  rw [count] at agrees
  obtain ⟨items, outcome⟩ := agrees
  obtain ⟨result, stop⟩ := Prod.mk.inj outcome
  exact ⟨items, Prod.ext result (congrArg (Reader.mk source) stop)⟩

/-- Reading a text fails exactly if, behind the marks that it starts with, there is a list from
which the depth never comes back to zero. -/
theorem read_unclosed_iff (source : String) :
    read source = .error .unclosedList ↔
      (dropMarks source.toList).head? = some '(' ∧
        extent 0 (pieces (dropMarks source.toList)) = none := by
  obtain ⟨front, marks, text, solid⟩ := dropMarks_spec source.toList
  have same : read source =
      (ReadState.run (Reader.ofSource source).endPos ⟨[], 0 + front.count '\''⟩
        (lexemes 0 (0 + front.length) (dropMarks source.toList))).1 := by
    rw [← ReadState.run_marks marks, ← text]
    rfl
  rw [same]
  cases behind : dropMarks source.toList with
  | nil =>
      rw [ReadState.run_end]
      exact iff_of_false (fun error => nomatch error) fun opens => nomatch opens.1
  | cons c rest =>
      rw [behind] at solid
      obtain ⟨solid, notMark⟩ := solid c rfl
      by_cases opens : c = '('
      · subst opens
        have agrees := ReadState.run_agrees_list rest (Reader.ofSource source).endPos
          (0 + front.count '\'') (0 + front.length)
        rw [agrees.unclosed_iff]
        exact ⟨fun never => ⟨rfl, never⟩, fun unmatched => unmatched.2⟩
      · obtain ⟨v, reads⟩ := ReadState.run_ok_of_ne solid notMark opens rest
          (Reader.ofSource source).endPos (0 + front.count '\'') (0 + front.length)
        rw [reads]
        exact iff_of_false (fun error => nomatch error) fun head => opens (Option.some.inj head.1)

/-- **Depth alone decides where a list ends.**  A reader at an opening parenthesis fails exactly if
the depth, counted over the pieces of the text from there on, never comes back to zero; otherwise it
reads a list and stops right behind the piece with which the depth first is zero.  Hence a text
cannot be read exactly if, behind the blanks and quote marks at its start, there is an opening
parenthesis from which the depth never comes back to zero. -/
theorem Reader.next_iff_extent (source : String) :
    (∀ i, source.toList[i]? = some '(' →
      ((Reader.mk source i).next.1 = .error .unclosedList ↔
          extent 0 (pieces (source.toList.drop i)) = none) ∧
        ∀ n, extent 0 (pieces (source.toList.drop i)) = some n →
          ∃ items, (Reader.mk source i).next = (.ok (.list items), ⟨source, i + n⟩)) ∧
      (read source = .error .unclosedList ↔
        (dropMarks source.toList).head? = some '(' ∧
          extent 0 (pieces (dropMarks source.toList)) = none) := by
  refine ⟨fun i opens => ⟨?_, ?_⟩, read_unclosed_iff source⟩
  · exact (next_agrees opens).unclosed_iff
  · exact fun n count => next_of_extent opens count

/-- A parenthesis in a string does not count, a quote inside of an atom starts no string, and a list
is never closed if a string in it runs to the end of the text. -/
theorem Reader.next_iff_extent_strings :
    (∃ items, (Reader.mk "x(a\" \")\\\"\" '))" 1).next =
      (.ok (.list items), ⟨"x(a\" \")\\\"\" '))", 13⟩)) ∧
      read " '(a \")" = .error .unclosedList := by
  refine ⟨?_, ?_⟩
  · exact ((next_iff_extent "x(a\" \")\\\"\" '))").1 1 (by decide)).2 12 (by decide +kernel)
  · exact (next_iff_extent " '(a \")").2.mpr (by decide +kernel)

end BufferLisp
