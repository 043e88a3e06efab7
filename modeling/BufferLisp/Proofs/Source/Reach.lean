import BufferLisp.Proofs.Source.Locality
import BufferLisp.Proofs.Source.Nesting

/-!
# How far a text reaches

A reader passes over whole pieces of its text (`Passes`), so its position is the sum of how far each
of them reaches.  A piece reaches as far as it is wide, unless the end of the text cuts off a
string: its closing quote counts as if it stood behind the end, and so does the character that a
backslash at the very end still skips.  So a text reaches as far as it is long, or one or two
characters further (`reach_cases`), and a reader that runs out of lexemes stops where the text
reaches to (`Reader.endPos_eq`).
-/

set_option autoImplicit false

namespace BufferLisp

/-! ## Strings that are cut off -/

namespace Token

/-- No quote closes a string: each one is the second half of a pair with the backslash before it. -/
def IsCutOff (body : List Char) : Prop :=
  ∀ front back, body = front ++ '"' :: back → endBackslashes front % 2 = 1

theorem isCutOff_pair_iff (d : Char) (cs : List Char) :
    IsCutOff ('\\' :: d :: cs) ↔ IsCutOff cs := by
  constructor
  · intro cut front back text
    have odd := cut ('\\' :: d :: front) back (congrArg ('\\' :: d :: ·) text)
    rwa [endBackslashes_pair] at odd
  · intro cut front back text
    match front with
    | [] => exact absurd (List.cons.inj text).1 (by simp)
    | [a] =>
        obtain ⟨rfl, -⟩ := List.cons.inj text
        rfl
    | a :: b :: front =>
        obtain rfl : '\\' = a := (List.cons.inj text).1
        have others : d :: cs = b :: (front ++ '"' :: back) := (List.cons.inj text).2
        obtain ⟨rfl, behind⟩ := List.cons.inj others
        rw [endBackslashes_pair]
        exact cut front back behind

theorem isCutOff_cons_iff {c : Char} (plain : c ≠ '\\') (inside : c ≠ '"') (cs : List Char) :
    IsCutOff (c :: cs) ↔ IsCutOff cs := by
  constructor
  · intro cut front back text
    have odd := cut (c :: front) back (congrArg (c :: ·) text)
    rwa [endBackslashes_cons_of_ne plain] at odd
  · intro cut front back text
    cases front with
    | nil => exact absurd (List.cons.inj text).1 inside
    | cons a front =>
        obtain ⟨rfl, behind⟩ := List.cons.inj text
        rw [endBackslashes_cons_of_ne plain]
        exact cut front back behind

/-- **A string is cut off exactly if its literal takes up all that follows.** -/
theorem isCutOff_iff (cs : List Char) : IsCutOff cs ↔ cs.length ≤ literalWidth cs := by
  induction cs using literalInduction with
  | nil => exact iff_of_true (fun front back text => by simp at text) (Nat.le_refl 0)
  | lone =>
      refine iff_of_true (fun front back text => ?_) (by simp [literalWidth])
      cases front with
      | nil => exact absurd (List.cons.inj text).1 (by simp)
      | cons a front => exact absurd (List.cons.inj text).2 (by simp)
  | skip d cs ih => simp [isCutOff_pair_iff, literalWidth_skip, ih]
  | quote cs =>
      refine iff_of_false (fun cut => ?_) (by simp [literalWidth_quote])
      have odd := cut [] cs rfl
      exact absurd odd (by decide)
  | other c cs plain inside ih =>
      simp [isCutOff_cons_iff plain inside, literalWidth_cons plain inside, ih]

/-- The literal of a string that is cut off goes past the end of the text exactly if a backslash
there is not itself skipped. -/
theorem IsCutOff.literalWidth_eq {cs : List Char} (cut : IsCutOff cs) :
    literalWidth cs = cs.length + endBackslashes cs % 2 := by
  induction cs using literalInduction with
  | nil => rfl
  | lone => rfl
  | skip d cs ih =>
      rw [literalWidth_skip, endBackslashes_pair, ih ((isCutOff_pair_iff d cs).mp cut),
        List.length_cons, List.length_cons]
      omega
  | quote cs =>
      have odd := cut [] cs rfl
      exact absurd odd (by decide)
  | other c cs plain inside ih =>
      rw [literalWidth_cons plain inside, endBackslashes_cons_of_ne plain,
        ih ((isCutOff_cons_iff plain inside cs).mp cut), List.length_cons]
      omega

end Token

/-! ## Pieces and their reach -/

namespace Piece

theorem width_first (c : Char) (rest : List Char) :
    (first c rest).width + (rest.drop ((first c rest).width - 1)).length = rest.length + 1 := by
  have text := congrArg List.length (chars_append_drop c rest)
  rwa [List.length_append, List.length_cons] at text

/-- Nothing stands behind a string that takes up all the text. -/
theorem drop_string (rest : List Char) : rest.drop ((string rest).width - 1) = [] := by
  rw [width, chars, List.length_cons, Nat.add_sub_cancel, List.drop_length]

/-- A piece reaches to its end, or it is a string that is cut off, with all that follows in it. -/
theorem reach_first (c : Char) (rest : List Char) :
    (first c rest).reach = (first c rest).width ∨
      first c rest = string rest ∧ Token.IsCutOff rest := by
  fun_cases first c rest with
  | case5 solid notOpen notClose notMark quote =>
      rcases stringBody_cases rest with closed | ⟨all, cut⟩
      · left
        rw [reach, literalWidth_stringBody, width, chars, List.length_cons, closed]
      · right
        exact ⟨congrArg string all, (Token.isCutOff_iff rest).mpr cut⟩
  | _ => exact .inl rfl

end Piece

/-- How far pieces reach together. -/
def reach : List Piece → Nat
  | [] => 0
  | piece :: ps => piece.reach + reach ps

theorem reach_append (ps qs : List Piece) : reach (ps ++ qs) = reach ps + reach qs := by
  induction ps with
  | nil => exact (Nat.zero_add _).symm
  | cons piece ps ih => rw [List.cons_append, reach, reach, ih, Nat.add_assoc]

/-- Behind what the first piece reaches come the other pieces. -/
theorem pieces_drop_reach (c : Char) (rest : List Char) :
    pieces (c :: rest) =
      Piece.first c rest :: pieces ((c :: rest).drop (Piece.first c rest).reach) := by
  rw [pieces_cons]
  have width := Piece.width_first c rest
  rcases Piece.reach_first c rest with same | ⟨string, cut⟩
  · have some : (Piece.first c rest).width ≠ 0 := by
      rw [List.length_drop] at width
      omega
    obtain ⟨k, succ⟩ := Nat.exists_eq_succ_of_ne_zero some
    rw [same, succ, List.drop_succ_cons]
    rfl
  · rw [string, Piece.drop_string, Piece.reach, cut.literalWidth_eq,
      List.drop_of_length_le (by rw [List.length_cons]; omega)]

/-- A text reaches one character further with a piece of one character in front. -/
theorem reach_single {c : Char} {cs : List Char} (single : (Piece.first c cs).reach = 1) :
    reach (pieces (c :: cs)) = reach (pieces cs) + 1 := by
  rw [pieces_drop_reach, reach, single, List.drop_one, List.tail_cons, Nat.add_comm]

/-- The text ends in a string that is cut off; `body` is what stands behind its opening quote. -/
structure EndsCutOff (cs body : List Char) : Prop where
  last : (pieces cs).getLast? = some (.string body)
  cutOff : Token.IsCutOff body

theorem not_endsCutOff_nil (body : List Char) : ¬ EndsCutOff [] body := by
  rintro ⟨last, -⟩
  rw [pieces] at last
  cases last

/-- A text ends as it does behind its first piece, unless that is all of it. -/
theorem endsCutOff_cons_iff {c : Char} {rest body : List Char}
    (full : (Piece.first c rest).reach = (Piece.first c rest).width) :
    EndsCutOff (c :: rest) body ↔
      EndsCutOff (rest.drop ((Piece.first c rest).width - 1)) body := by
  constructor
  · rintro ⟨last, cut⟩
    refine ⟨?_, cut⟩
    rw [pieces_cons, List.getLast?_cons] at last
    cases behind : (pieces (rest.drop ((Piece.first c rest).width - 1))).getLast? with
    | none =>
        -- A string that is cut off would reach further.
        rw [behind] at last
        have string : Piece.first c rest = .string body := Option.some.inj last
        rw [string, Piece.reach, cut.literalWidth_eq, Piece.width, Piece.chars,
          List.length_cons] at full
        omega
    | some piece =>
        rw [behind] at last
        exact last
  · rintro ⟨last, cut⟩
    refine ⟨?_, cut⟩
    rw [pieces_cons, List.getLast?_cons, last]
    rfl

/-- **A text reaches as far as it is long, unless a string at its end is cut off.**  Then it reaches
one character further, and two if its last character is a backslash that is not itself skipped. -/
theorem reach_cases (cs : List Char) :
    (reach (pieces cs) = cs.length ∧ ∀ body, ¬ EndsCutOff cs body) ∨
      ∃ body, EndsCutOff cs body ∧
        reach (pieces cs) = cs.length + 1 + Token.endBackslashes body % 2 := by
  induction cs using pieces.induct with
  | case1 =>
      left
      rw [pieces]
      exact ⟨rfl, not_endsCutOff_nil⟩
  | case2 c rest ih =>
      have width := Piece.width_first c rest
      rw [pieces_cons, reach, List.length_cons]
      rcases Piece.reach_first c rest with same | ⟨string, cut⟩
      · rw [same]
        rcases ih with ⟨full, closed⟩ | ⟨body, ends, further⟩
        · left
          exact ⟨by omega, fun body ends => closed body ((endsCutOff_cons_iff same).mp ends)⟩
        · right
          exact ⟨body, (endsCutOff_cons_iff same).mpr ends, by omega⟩
      · right
        refine ⟨rest, ⟨?_, cut⟩, ?_⟩
        · rw [pieces_cons, string, Piece.drop_string, pieces]
          rfl
        rw [string, Piece.drop_string, pieces, Piece.reach, cut.literalWidth_eq, reach]
        omega

theorem length_le_reach (cs : List Char) : cs.length ≤ reach (pieces cs) := by
  rcases reach_cases cs with ⟨full, -⟩ | ⟨body, -, further⟩
  · exact Nat.le_of_eq full.symm
  · omega

/-! ## Passing over pieces -/

/-- A reader that has come so many characters further has passed over whole pieces. -/
def Passes (cs : List Char) (n : Nat) : Prop :=
  ∃ taken, pieces cs = taken ++ pieces (cs.drop n) ∧ reach taken = n

theorem Passes.none (cs : List Char) : Passes cs 0 :=
  ⟨[], rfl, rfl⟩

theorem Passes.trans {cs : List Char} {n m : Nat} (front : Passes cs n)
    (back : Passes (cs.drop n) m) : Passes cs (n + m) := by
  obtain ⟨taken, text, reached⟩ := front
  obtain ⟨more, behind, further⟩ := back
  refine ⟨taken ++ more, ?_, ?_⟩
  · rw [text, behind, List.drop_drop, List.append_assoc]
  · rw [reach_append, reached, further]

theorem Passes.first (c : Char) (rest : List Char) :
    Passes (c :: rest) (Piece.first c rest).reach :=
  ⟨[Piece.first c rest], pieces_drop_reach c rest, Nat.add_zero _⟩

theorem Passes.reach_eq {cs : List Char} {n : Nat} (passes : Passes cs n) :
    reach (pieces cs) = n + reach (pieces (cs.drop n)) := by
  obtain ⟨taken, text, reached⟩ := passes
  rw [text, reach_append, reached]

/-- A piece of one character, and more behind it. -/
theorem Passes.cons {c : Char} {cs : List Char} {n : Nat} (single : (Piece.first c cs).reach = 1)
    (back : Passes cs n) : Passes (c :: cs) (n + 1) := by
  have front := Passes.first c cs
  rw [single] at front
  rw [Nat.add_comm]
  exact front.trans back

/-- The whole text is passed over by what it reaches. -/
theorem Passes.all (cs : List Char) : Passes cs (reach (pieces cs)) := by
  refine ⟨pieces cs, ?_, rfl⟩
  rw [List.drop_of_length_le (length_le_reach cs), pieces, List.append_nil]

/-- Whoever has passed over the whole of a text stands where it reaches to. -/
theorem Passes.eq_reach {cs : List Char} {n : Nat} (passes : Passes cs n) (all : cs.length ≤ n) :
    n = reach (pieces cs) := by
  have whole := passes.reach_eq
  rw [List.drop_of_length_le all, pieces] at whole
  exact whole.symm

theorem Piece.reach_mark {c : Char} (mark : Text.isBlank c = true ∨ c = '\'') (cs : List Char) :
    (first c cs).reach = 1 := by
  rcases mark with blank | rfl
  · rw [first, if_pos blank]
    rfl
  · rfl

theorem Passes.marks {front : List Char} (marks : AreMarks front) (cs : List Char) :
    Passes (front ++ cs) front.length := by
  induction front with
  | nil => exact .none cs
  | cons c front ih =>
      obtain ⟨mark, others⟩ := areMarks_cons.mp marks
      exact .cons (Piece.reach_mark mark (front ++ cs)) (ih others)

/-- Blanks and quote marks reach as far as they take up. -/
theorem reach_marks {cs : List Char} (marks : AreMarks cs) : reach (pieces cs) = cs.length := by
  have whole := Passes.marks marks []
  rw [List.append_nil] at whole
  exact (whole.eq_reach (Nat.le_refl _)).symm

mutual

/-- **An expression takes up whole pieces.** -/
theorem Reads.passes {cs : List Char} {v : Value} {n : Nat} (reads : Reads cs v n) : Passes cs n :=
  match reads with
  | .blank blank reads => .cons (Piece.reach_mark (.inl blank) _) reads.passes
  | .quote reads => .cons (Piece.reach_mark (.inr rfl) _) reads.passes
  | .literal cs => by
      have first := Passes.first '"' cs
      have string : Piece.first '"' cs = .string (Piece.stringBody cs) := rfl
      rwa [string, Piece.reach, Piece.literalWidth_stringBody] at first
  | .atom (c := c) starts cs => by
      have first := Passes.first c cs
      rw [Piece.first_atom starts] at first
      rwa [Token.atomPart_cons starts.1]
  | .list items => .cons rfl items.passes

/-- Items and the parenthesis that closes their list take up whole pieces. -/
theorem ReadsItems.passes {cs : List Char} {vs : List Value} {n : Nat}
    (items : ReadsItems cs vs n) : Passes cs n :=
  match items with
  | @ReadsItems.close front marks cs => by
      have behind : Passes (')' :: cs) 1 := .cons rfl (.none cs)
      have front := Passes.marks marks (')' :: cs)
      exact front.trans (by rwa [List.drop_left])
  | .cons first rest => first.passes.trans rest.passes

end

/-! ## Where the lexemes end -/

/-- No lexeme of a text goes further than the text reaches, and one goes that far if the text
reaches past its end. -/
theorem lexemes_stop (pos : Nat) (cs : List Char) :
    (lexemes 0 pos cs).foldl (fun pos lexeme => max pos lexeme.stop) (pos + cs.length) =
      pos + reach (pieces cs) := by
  induction cs using pieces.induct generalizing pos with
  | case1 =>
      rw [pieces]
      rfl
  | case2 c rest ih =>
      have width := Piece.width_first c rest
      have ih := ih (pos + (Piece.first c rest).width)
      rw [Nat.add_assoc, width] at ih
      rw [pieces_cons, reach, List.length_cons]
      cases blank : Text.isBlank c with
      | true =>
          have single : (Piece.first c rest).width = 1 := by
            rw [Piece.first, if_pos blank]
            rfl
          rw [single] at ih
          rw [lexemes_blank blank, Piece.reach_mark (.inl blank), single]
          exact ih.trans (Nat.add_assoc _ _ _)
      | false =>
          obtain ⟨token, text, -⟩ := lexemes_first blank rest pos
          rw [text, List.foldl_cons]
          rcases Piece.reach_first c rest with same | ⟨string, cut⟩
          · have within : pos + (Piece.first c rest).width ≤ pos + (rest.length + 1) := by omega
            rw [same, Nat.max_eq_left within, ih, Nat.add_assoc]
          · have past : pos + (rest.length + 1) ≤ pos + (Token.literalWidth rest + 2) := by
              rw [cut.literalWidth_eq]
              omega
            rw [string, Piece.drop_string, pieces, Piece.reach, Nat.max_eq_right past]
            rfl

/-- **A reader that runs out of lexemes stops where its text reaches to.** -/
theorem Reader.endPos_eq (reader : Reader) :
    reader.endPos = reader.pos + reach (pieces (reader.source.toList.drop reader.pos)) := by
  unfold endPos lexemes
  rcases Nat.le_total reader.pos reader.source.length with within | past
  · have stop := lexemes_stop reader.pos (reader.source.toList.drop reader.pos)
    rw [List.length_drop, String.length_toList, Nat.add_sub_cancel' within] at stop
    rw [Nat.max_eq_right within, stop]
  · have none : reader.source.toList.drop reader.pos = [] :=
      List.drop_of_length_le (by rwa [String.length_toList])
    rw [none, pieces, Nat.max_eq_left past]
    rfl

end BufferLisp
