import BufferLisp.Proofs.Source.Grammar
import BufferLisp.Proofs.Source.Literal
import BufferLisp.Source.LastExpression

/-!
# Finding an expression from behind

An expression that was read forward is found again from its end (`backward_reads`): a list if no
string in it holds a parenthesis, a string if no backslash stands before it, and an atom that is cut
off in front and does not end in a quote.

The backward search counts parentheses and knows nothing of strings.  It passes over a text at every
depth, as if it were not there, if the text is `Transparent`; characters other than parentheses are,
and so is a list of transparent items.  Within a string it passes over each quote that was skipped
when reading, since a backslash stands right before it.

An expression is read in the same way from its own text (`reads_take`), so what is found is read as
the same value.
-/

set_option autoImplicit false

namespace BufferLisp

namespace Value

mutual

/-- No string in the value holds a parenthesis. -/
def StringsPlain : Value → Prop
  | str s => '(' ∉ s.toList ∧ ')' ∉ s.toList
  | list items => AllStringsPlain items
  | _ => True

/-- No string in the values holds a parenthesis. -/
def AllStringsPlain : List Value → Prop
  | [] => True
  | v :: rest => StringsPlain v ∧ AllStringsPlain rest

end

end Value

namespace LastExpression

/-! ## Passing over balanced text -/

/-- The search for an opening parenthesis passes over the text, however deep it is. -/
def Transparent (span : List Char) : Prop :=
  ∀ (inner : Nat) (rest : List Char),
    backToOpening inner (span.reverse ++ rest) = (backToOpening inner rest).map (span.reverse ++ ·)

theorem backToOpening_cons {c : Char} (notOpen : c ≠ '(') (notClose : c ≠ ')') (inner : Nat)
    (rest : List Char) :
    backToOpening inner (c :: rest) = (backToOpening inner rest).map (c :: ·) := by
  rw [backToOpening.eq_5] <;> simp_all

theorem transparent_nil : Transparent [] := by
  intro inner rest
  simp

theorem Transparent.append {front back : List Char} (first : Transparent front)
    (second : Transparent back) : Transparent (front ++ back) := by
  intro inner rest
  rw [List.reverse_append, List.append_assoc, second, first, Option.map_map]
  congr 1
  funext found
  exact (List.append_assoc _ _ _).symm

/-- Text without parentheses is transparent. -/
theorem transparent_of_forall {span : List Char} (plain : ∀ c ∈ span, c ≠ '(' ∧ c ≠ ')') :
    Transparent span := by
  induction span with
  | nil => exact transparent_nil
  | cons c span ih =>
      have single : Transparent [c] := by
        obtain ⟨notOpen, notClose⟩ := plain c List.mem_cons_self
        intro inner rest
        exact backToOpening_cons notOpen notClose inner rest
      exact single.append (ih fun d member => plain d (List.mem_cons_of_mem c member))

/-- Within a list the search is one deeper. -/
theorem Transparent.list {body : List Char} (items : Transparent body) :
    Transparent ('(' :: (body ++ [')'])) := by
  intro inner rest
  have text : ('(' :: (body ++ [')'])).reverse ++ rest = ')' :: (body.reverse ++ '(' :: rest) := by
    simp
  rw [text, backToOpening, items, backToOpening, Option.map_map, Option.map_map]
  congr 1
  funext found
  simp

/-- The characters of an atom are its part of the text. -/
theorem take_atomPart (cs : List Char) :
    cs.take (Token.atomPart cs).length = Token.atomPart cs :=
  List.prefix_iff_eq_take.mp (List.takeWhile_prefix _) |>.symm

/-- A literal takes up its opening quote, what stands between its quotes, and its closing quote. -/
theorem take_literal {cs : List Char} (closed : Token.literalWidth cs + 2 ≤ ('"' :: cs).length) :
    ('"' :: cs).take (Token.literalWidth cs + 2) =
      '"' :: (cs.take (Token.literalWidth cs) ++ ['"']) := by
  rw [List.length_cons] at closed
  rw [List.take_succ_cons, Token.take_literalWidth_succ (by omega)]

theorem ne_paren_of_mark {c : Char} (mark : Text.isBlank c = true ∨ c = '\'') :
    c ≠ '(' ∧ c ≠ ')' := by
  constructor
  · rintro rfl
    exact absurd mark (by decide)
  · rintro rfl
    exact absurd mark (by decide)

theorem transparent_mark {c : Char} (mark : Text.isBlank c = true ∨ c = '\'') :
    Transparent [c] := by
  apply transparent_of_forall
  intro d member
  rw [List.mem_singleton.mp member]
  exact ne_paren_of_mark mark

/-- Parentheses in a literal are parentheses of its string. -/
theorem ne_paren_of_literal {raw : List Char}
    (plain : (Value.str (Token.literalText raw)).StringsPlain) :
    ∀ c ∈ raw, c ≠ '(' ∧ c ≠ ')' := by
  have plain : '(' ∉ Token.unescape raw ∧ ')' ∉ Token.unescape raw := by
    rwa [← Token.toList_literalText]
  intro c member
  constructor
  · rintro rfl
    exact plain.1 (Token.mem_unescape (by decide) member)
  · rintro rfl
    exact plain.2 (Token.mem_unescape (by decide) member)

mutual

/-- **The text of an expression is transparent** if no string in it holds a parenthesis. -/
theorem transparent_reads {cs : List Char} {v : Value} {n : Nat} (reads : Reads cs v n)
    (within : n ≤ cs.length) (plain : v.StringsPlain) : Transparent (cs.take n) :=
  match reads with
  | .blank (c := c) blank reads => by
      have single : Transparent [c] := transparent_mark (.inl blank)
      exact single.append (transparent_reads reads (by simpa using within) plain)
  | .quote reads => by
      have single : Transparent ['\''] := transparent_mark (.inr rfl)
      exact single.append (transparent_reads reads (by simpa using within) plain.2.1)
  | .literal cs => by
      rw [take_literal within]
      apply transparent_of_forall
      intro c member
      simp only [List.mem_cons, List.mem_append, List.not_mem_nil, or_false] at member
      rcases member with rfl | member | rfl
      · decide
      · exact ne_paren_of_literal plain c member
      · decide
  | .atom (c := c) starts cs => by
      rw [take_atomPart]
      apply transparent_of_forall
      intro d member
      exact (Token.isBlank_of_not_isDelimiter (Token.isDelimiter_of_mem_atomPart member)).2
  | .list items => by
      obtain ⟨body, text, inside⟩ := transparent_items items plain
      rw [List.take_succ_cons, text]
      exact inside.list

/-- The text of items is transparent up to the parenthesis that closes their list. -/
theorem transparent_items {cs : List Char} {vs : List Value} {n : Nat}
    (items : ReadsItems cs vs n) (plain : Value.AllStringsPlain vs) :
    ∃ body, cs.take n = body ++ [')'] ∧ Transparent body :=
  match items with
  | @ReadsItems.close front marks cs => by
      have text : (front ++ ')' :: cs).take (front.length + 1) = front ++ [')'] := by
        rw [List.take_length_add_append, List.take_succ_cons, List.take_zero]
      exact ⟨front, text, transparent_of_forall fun c member => ne_paren_of_mark (marks c member)⟩
  | .cons (n := n) first rest => by
      obtain ⟨body, text, inside⟩ := transparent_items rest plain.2
      have front := transparent_reads first rest.within plain.1
      refine ⟨cs.take n ++ body, ?_, front.append inside⟩
      rw [List.take_add, text, List.append_assoc]

end

/-! ## Reading an expression from its own text -/

/-- What stands behind an atom ends it, and so does the beginning of that. -/
theorem endsAtom_take_dropWhile (cs : List Char) (k : Nat) :
    Token.EndsAtom ((cs.dropWhile (!Token.isDelimiter ·)).take k) := by
  intro c head
  have stop := List.head?_dropWhile_not (!Token.isDelimiter ·) cs
  cases behind : cs.dropWhile (!Token.isDelimiter ·) with
  | nil => simp [behind] at head
  | cons d rest =>
      rw [behind] at stop head
      cases k with
      | zero => simp at head
      | succ k =>
          obtain rfl : d = c := Option.some.inj head
          simpa using stop

/-- An atom does not depend on the text behind it. -/
theorem atomPart_take {cs : List Char} {k : Nat} (room : (Token.atomPart cs).length ≤ k) :
    Token.atomPart (cs.take k) = Token.atomPart cs := by
  have parts : Token.atomPart cs ++ cs.dropWhile (!Token.isDelimiter ·) = cs :=
    List.takeWhile_append_dropWhile
  have text := @List.take_append Char (Token.atomPart cs)
    (cs.dropWhile (!Token.isDelimiter ·)) k
  rw [parts, List.take_of_length_le room] at text
  rw [text, Token.atomPart_append (fun c => Token.isDelimiter_of_mem_atomPart)
    (endsAtom_take_dropWhile cs _)]

mutual

/-- **An expression is read in the same way if the text is cut off behind it.** -/
theorem reads_take {cs : List Char} {v : Value} {n k : Nat} (reads : Reads cs v n)
    (within : n ≤ cs.length) (room : n ≤ k) : Reads (cs.take k) v n := by
  obtain ⟨k, rfl⟩ : ∃ j, k = j + 1 := ⟨k - 1, by have := reads.width_pos; omega⟩
  match reads with
  | .blank blank reads => exact .blank blank (reads_take reads (by simpa using within) (by omega))
  | .quote reads => exact .quote (reads_take reads (by simpa using within) (by omega))
  | .literal cs =>
      rw [List.length_cons] at within
      have width := @Token.literalWidth_take cs (by omega) k (by omega)
      have same := Reads.literal (cs.take k)
      rwa [width, List.take_take, Nat.min_eq_left (by omega)] at same
  | .atom starts cs =>
      have same := Reads.atom starts (cs.take k)
      rwa [← List.take_succ_cons, atomPart_take room] at same
  | .list items => exact .list (items_take items (by omega))

/-- Items are read in the same way if the text is cut off behind their list. -/
theorem items_take {cs : List Char} {vs : List Value} {n k : Nat} (items : ReadsItems cs vs n)
    (room : n ≤ k) : ReadsItems (cs.take k) vs n := by
  match items with
  | @ReadsItems.close front marks cs =>
      obtain ⟨j, rfl⟩ := Nat.exists_eq_add_of_le room
      have same := ReadsItems.close marks (cs.take j)
      rwa [Nat.add_assoc, List.take_length_add_append, Nat.add_comm 1 j, List.take_succ_cons]
  | .cons (n := n) (m := m) first rest =>
      have others := items_take (k := k - n) rest (by omega)
      rw [← List.drop_take] at others
      exact .cons (reads_take first rest.within (by omega)) others

end

/-! ## The search from behind -/

/-- The search for a quote passes over those that stand behind a backslash. -/
theorem backToQuote_append {back before : List Char}
    (escaped : ∀ front rest, back = front ++ '"' :: rest → rest.head? = some '\\')
    (start : before.head? ≠ some '\\') :
    backToQuote (back ++ '"' :: before) = some (back ++ ['"']) := by
  induction back with
  | nil => simp [backToQuote, start]
  | cons c back ih =>
      have ih := ih fun front rest text => escaped (c :: front) rest (by rw [text]; rfl)
      have passed : (c = '"' && (back ++ '"' :: before).head? != some '\\') = false := by
        by_cases quote : c = '"'
        · have backslash := escaped [] back (by rw [quote]; rfl)
          simp [List.head?_append, backslash]
        · simp [quote]
      rw [List.cons_append, backToQuote, passed, ih]
      rfl

/-- An expression that the search from behind finds. -/
structure Found (before span : List Char) : Prop where
  solid : ∃ c, span.getLast? = some c ∧ Text.isBlank c = false
  backward : backward (span.reverse ++ before.reverse) = some span.reverse

theorem Found.ne_nil {before span : List Char} (found : Found before span) : span ≠ [] := by
  obtain ⟨c, last, -⟩ := found.solid
  rintro rfl
  nomatch last

theorem found_list {body : List Char} (inside : Transparent body) (before : List Char) :
    Found before ('(' :: (body ++ [')'])) := by
  refine ⟨⟨')', by rw [← List.cons_append, List.getLast?_concat], by decide⟩, ?_⟩
  have text : ('(' :: (body ++ [')'])).reverse ++ before.reverse =
      ')' :: (body.reverse ++ '(' :: before.reverse) := by simp
  rw [text, backward, inside, backToOpening]
  simp

theorem found_literal {before raw : List Char}
    (escaped : ∀ front back, raw = front ++ '"' :: back → front.getLast? = some '\\')
    (start : before.getLast? ≠ some '\\') : Found before ('"' :: (raw ++ ['"'])) := by
  refine ⟨⟨'"', by rw [← List.cons_append, List.getLast?_concat], by decide⟩, ?_⟩
  have text : ('"' :: (raw ++ ['"'])).reverse ++ before.reverse =
      '"' :: (raw.reverse ++ '"' :: before.reverse) := by simp
  rw [text, backward, backToQuote_append]
  · simp
  · intro front rest split
    have split : raw = rest.reverse ++ '"' :: front.reverse := by
      simpa using congrArg List.reverse split
    simpa using escaped _ _ split
  · simpa using start

theorem backward_atom {c : Char} (notClose : c ≠ ')') (notQuote : c ≠ '"') (rest : List Char) :
    backward (c :: rest) = some (Token.atomPart (c :: rest)) := by
  rw [backward.eq_4] <;> simp_all

theorem found_atom {before span : List Char} (nonempty : span ≠ [])
    (plain : ∀ c ∈ span, Token.isDelimiter c = false) (unquoted : span.getLast? ≠ some '"')
    (ends : ∀ c ∈ before.getLast?, Token.isDelimiter c = true) : Found before span := by
  obtain ⟨front, c, rfl⟩ := (List.eq_nil_or_concat span).resolve_left nonempty
  rw [List.concat_eq_append] at plain unquoted ⊢
  have last : (front ++ [c]).getLast? = some c := List.getLast?_concat
  have part := plain c (List.mem_append_right front List.mem_cons_self)
  obtain ⟨solid, -, notClose⟩ := Token.isBlank_of_not_isDelimiter part
  have notQuote : c ≠ '"' := by
    rintro rfl
    exact unquoted last
  refine ⟨⟨c, last, solid⟩, ?_⟩
  have whole := @Token.atomPart_append (front ++ [c]).reverse before.reverse
    (fun d member => plain d (List.mem_reverse.mp member))
    (fun d head => ends d (by rwa [List.head?_reverse] at head))
  have text : (front ++ [c]).reverse ++ before.reverse = c :: (front.reverse ++ before.reverse) := by
    simp
  rw [text] at whole ⊢
  rw [backward_atom notClose notQuote, whole]

/-- The expressions that can be found again, by the character that they start with: `before` is the
text in front of the expression and `span` its own text. -/
inductive Recoverable (before : List Char) (first : Char) (span : List Char) (v : Value) : Prop
  | list (opens : first = '(') (plain : v.StringsPlain)
  | literal (quote : first = '"') (unescaped : before.getLast? ≠ some '\\')
  | atom (notParen : first ≠ '(' ∧ first ≠ ')') (notQuote : first ≠ '"' ∧ first ≠ '\'')
      (unquoted : span.getLast? ≠ some '"')
      (delimited : ∀ c ∈ before.getLast?, Token.isDelimiter c = true)

/-- **An expression that was read forward is found from behind.** -/
theorem found_of_reads {before cs : List Char} {first : Char} {v : Value} {n : Nat}
    (solid : Text.isBlank first = false) (reads : Reads (first :: cs) v n)
    (within : n ≤ (first :: cs).length)
    (recoverable : Recoverable before first ((first :: cs).take n) v) :
    Found before ((first :: cs).take n) := by
  cases recoverable with
  | list opens plain =>
      subst opens
      obtain ⟨vs, m, rfl, rfl, items⟩ := reads.items
      obtain ⟨body, text, inside⟩ := transparent_items items plain
      rw [List.take_succ_cons, text]
      exact found_list inside before
  | literal quote unescaped =>
      subst quote
      obtain ⟨-, rfl⟩ := reads.unique (.literal cs)
      rw [take_literal within]
      exact found_literal (fun front back => Token.getLast?_of_take_literalWidth) unescaped
  | atom notParen notQuote unquoted delimited =>
      have starts : StartsAtom first := by
        refine ⟨?_, notQuote.2, notQuote.1⟩
        simp [Token.isDelimiter, solid, notParen]
      obtain ⟨-, rfl⟩ := reads.unique (.atom starts cs)
      rw [take_atomPart] at unquoted ⊢
      refine found_atom ?_ (fun c => Token.isDelimiter_of_mem_atomPart) unquoted delimited
      rw [Token.atomPart_cons starts.1]
      exact List.cons_ne_nil _ _

/-- The expression is found from every place behind it that only blanks separate from it. -/
theorem Found.lastExpression? {text : String} {cursor : Int} {before span blanks : List Char}
    (found : Found before span) (blank : ∀ c ∈ blanks, Text.isBlank c = true)
    (split : text.toList.take cursor.toNat = before ++ span ++ blanks) :
    lastExpression? text cursor = some (String.ofList span) := by
  obtain ⟨c, last, solid⟩ := found.solid
  have start : Text.dropBlanks (span.reverse ++ before.reverse) = span.reverse ++ before.reverse := by
    rw [← List.head?_reverse] at last
    obtain ⟨back, same⟩ := List.head?_eq_some_iff.mp last
    rw [same, List.cons_append, Text.dropBlanks, List.dropWhile_cons_of_neg (by simp [solid])]
  have dropped : Text.dropBlanks (before ++ span ++ blanks).reverse =
      span.reverse ++ before.reverse := by
    rw [List.reverse_append, List.reverse_append, Text.dropBlanks,
      List.dropWhile_append_of_pos fun d member => blank d (List.mem_reverse.mp member)]
    exact start
  rw [BufferLisp.lastExpression?, split, dropped, found.backward]
  simp

/-- An expression is read from its own text as it was read from the whole text. -/
theorem read_take {cs : List Char} {v : Value} {n : Nat} (reads : Reads cs v n)
    (within : n ≤ cs.length) : read (String.ofList (cs.take n)) = .ok v := by
  have own := reads_take reads within (Nat.le_refl n)
  have next := @Reader.next_of_reads (Reader.ofSource (String.ofList (cs.take n))) v n (by
    rwa [Reader.ofSource, String.toList_ofList, List.drop_zero])
  exact congrArg Prod.fst next

/-- The text before a place behind an expression: what stands in front of the expression, the
expression, and what stands behind it. -/
theorem take_split {cs : List Char} {i e place : Nat} (order : i ≤ e) (behind : e ≤ place) :
    cs.take place = cs.take i ++ (cs.take e).drop i ++ (cs.take place).drop e := by
  have front : cs.take e = cs.take i ++ (cs.take e).drop i := by
    have parts := (List.take_append_drop i (cs.take e)).symm
    rwa [List.take_take, Nat.min_eq_left order] at parts
  rw [← front]
  have parts := (List.take_append_drop e (cs.take place)).symm
  rwa [List.take_take, Nat.min_eq_left behind] at parts

end LastExpression

end BufferLisp
