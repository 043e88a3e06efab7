import BufferLisp.Source.Literal

/-!
# String literals

A text stands for itself between quotes exactly if it is `Verbatim`: it holds no quote and no
backslash before an `n`, and the backslashes at its end come in pairs, so that none of them skips the
closing quote (`unescape_take_eq_iff`).

Decoding the escapes never makes a text longer, and it changes the first character of each pair that
it replaces.  So a literal that runs on past its text, into what happens to stand behind it, is not
decoded to that text whatever it picks up there.
-/

set_option autoImplicit false

namespace BufferLisp

/-! ## Replacing pairs -/

section ReplacePair

variable {first second result : Char}

theorem replacePair_pair (rest : List Char) :
    replacePair first second result (first :: second :: rest) =
      result :: replacePair first second result rest := by
  simp [replacePair]

theorem replacePair_cons {c d : Char} (other : ¬ (c = first ∧ d = second)) (rest : List Char) :
    replacePair first second result (c :: d :: rest) =
      c :: replacePair first second result (d :: rest) := by
  rw [replacePair, if_neg (by simpa using other)]

theorem replacePair_cons_of_ne {c : Char} (other : c ≠ first) (rest : List Char) :
    replacePair first second result (c :: rest) = c :: replacePair first second result rest := by
  cases rest with
  | nil => rfl
  | cons d rest => exact replacePair_cons (fun pair => other pair.1) rest

theorem length_replacePair_le (cs : List Char) :
    (replacePair first second result cs).length ≤ cs.length := by
  fun_induction replacePair first second result cs with
  | case1 c d rest pair ih => simp only [List.length_cons]; omega
  | case2 c d rest other ih => simpa using ih
  | case3 short => exact Nat.le_refl _

theorem replacePair_eq_nil {cs : List Char} (empty : replacePair first second result cs = []) :
    cs = [] := by
  cases cs with
  | nil => rfl
  | cons c cs =>
      cases cs with
      | nil => nomatch empty
      | cons d cs =>
          by_cases pair : c = first ∧ d = second
          · obtain ⟨rfl, rfl⟩ := pair
            rw [replacePair_pair] at empty
            nomatch empty
          · rw [replacePair_cons pair] at empty
            nomatch empty

theorem mem_replacePair {c : Char} (notFirst : c ≠ first) (notSecond : c ≠ second)
    {cs : List Char} (member : c ∈ cs) : c ∈ replacePair first second result cs := by
  fun_induction replacePair first second result cs with
  | case1 d e rest pair ih =>
      obtain ⟨rfl, rfl⟩ : d = first ∧ e = second := by simpa using pair
      simp only [List.mem_cons, notFirst, notSecond, false_or] at member
      exact List.mem_cons_of_mem _ (ih member)
  | case2 d e rest other ih =>
      rcases List.mem_cons.mp member with rfl | member
      · exact List.mem_cons_self
      · exact List.mem_cons_of_mem _ (ih member)
  | case3 short => exact member

/-- A text without the pair is kept. -/
theorem replacePair_of_absent {cs : List Char} (absent : ¬ [first, second] <:+: cs) :
    replacePair first second result cs = cs := by
  fun_induction replacePair first second result cs with
  | case1 c d rest pair ih =>
      obtain ⟨rfl, rfl⟩ : c = first ∧ d = second := by simpa using pair
      exact absurd ⟨[], rest, rfl⟩ absent
  | case2 c d rest other ih =>
      rw [ih fun inside => absent (List.infix_cons inside)]
  | case3 short => rfl

/-- A text that gets no shorter does not hold the pair. -/
theorem absent_of_length_le {cs : List Char}
    (full : cs.length ≤ (replacePair first second result cs).length) :
    ¬ [first, second] <:+: cs := by
  induction cs with
  | nil => simp
  | cons c cs ih =>
      cases cs with
      | nil =>
          intro inside
          exact absurd inside.length_le (by simp)
      | cons d cs =>
          by_cases pair : c = first ∧ d = second
          · obtain ⟨rfl, rfl⟩ := pair
            have short := @length_replacePair_le c d result cs
            rw [replacePair_pair] at full
            simp only [List.length_cons] at full
            omega
          · rw [replacePair_cons pair] at full
            intro inside
            rcases List.infix_cons_iff.mp inside with front | behind
            · obtain ⟨rest, same⟩ := front
              have heads := List.cons.inj same
              exact pair ⟨heads.1.symm, (List.cons.inj heads.2).1.symm⟩
            · exact ih (by simpa using full) behind

end ReplacePair

namespace Token

/-! ## Escapes -/

/-- The characters that those between the quotes of a literal stand for. -/
def unescape (raw : List Char) : List Char :=
  replacePair '\\' 'n' '\n' (replacePair '\\' '"' '"' raw)

theorem toList_literalText (raw : List Char) : (literalText raw).toList = unescape raw :=
  String.toList_ofList

theorem length_unescape_le (raw : List Char) : (unescape raw).length ≤ raw.length :=
  Nat.le_trans (length_replacePair_le _) (length_replacePair_le _)

/-- A character that is part of no escape is kept. -/
theorem mem_unescape {c : Char} (other : c ∉ ['\\', '"', 'n']) {raw : List Char}
    (member : c ∈ raw) : c ∈ unescape raw := by
  simp only [List.mem_cons, List.not_mem_nil, or_false, not_or] at other
  exact mem_replacePair other.1 other.2.2 (mem_replacePair other.1 other.2.1 member)

/-- If the first character is kept then the others are decoded by themselves. -/
theorem unescape_tail {c : Char} {raw rest : List Char} (kept : unescape (c :: raw) = c :: rest) :
    unescape raw = rest := by
  cases raw with
  | nil => exact (List.cons.inj kept).2
  | cons d raw =>
      unfold unescape at kept
      by_cases quote : c = '\\' ∧ d = '"'
      · obtain ⟨rfl, rfl⟩ := quote
        rw [replacePair_pair, replacePair_cons_of_ne (by decide)] at kept
        exact absurd (List.cons.inj kept).1 (by decide)
      · rw [replacePair_cons quote] at kept
        cases decoded : replacePair '\\' '"' '"' (d :: raw) with
        | nil => exact absurd (replacePair_eq_nil decoded) (by simp)
        | cons e more =>
            rw [decoded] at kept
            by_cases newline : c = '\\' ∧ e = 'n'
            · obtain ⟨rfl, rfl⟩ := newline
              rw [replacePair_pair] at kept
              exact absurd (List.cons.inj kept).1 (by decide)
            · rw [replacePair_cons newline] at kept
              rw [unescape, decoded]
              exact (List.cons.inj kept).2

/-- A longer text is not decoded to its beginning. -/
theorem eq_nil_of_unescape_append {cs more : List Char} (same : unescape (cs ++ more) = cs) :
    more = [] := by
  induction cs with
  | nil => exact replacePair_eq_nil (replacePair_eq_nil same)
  | cons c cs ih => exact ih (unescape_tail same)

/-- A text is kept exactly if it holds none of the pairs. -/
theorem unescape_eq_self_iff {cs : List Char} :
    unescape cs = cs ↔ ¬ ['\\', '"'] <:+: cs ∧ ¬ ['\\', 'n'] <:+: cs := by
  constructor
  · intro same
    have outer := @length_replacePair_le '\\' 'n' '\n' (replacePair '\\' '"' '"' cs)
    have length := congrArg List.length same
    rw [unescape] at length
    have full : cs.length ≤ (replacePair '\\' '"' '"' cs).length := by omega
    have quotes := absent_of_length_le full
    rw [replacePair_of_absent quotes] at length
    exact ⟨quotes, absent_of_length_le (Nat.le_of_eq length.symm)⟩
  · rintro ⟨quotes, newlines⟩
    rw [unescape, replacePair_of_absent quotes, replacePair_of_absent newlines]

/-! ## The closing quote -/

/-- The number of backslashes at the end of a text. -/
def endBackslashes (cs : List Char) : Nat :=
  (cs.reverse.takeWhile (· == '\\')).length

theorem endBackslashes_cons_of_ne {c : Char} (other : c ≠ '\\') (cs : List Char) :
    endBackslashes (c :: cs) = endBackslashes cs := by
  unfold endBackslashes
  rw [List.reverse_cons, List.takeWhile_append]
  split
  · next all => simp [other, all]
  · rfl

theorem endBackslashes_cons_self (cs : List Char) :
    endBackslashes ('\\' :: cs) =
      if endBackslashes cs = cs.length then cs.length + 1 else endBackslashes cs := by
  unfold endBackslashes
  rw [List.reverse_cons, List.takeWhile_append, List.length_reverse]
  split
  · simp
  · rfl

theorem endBackslashes_le (cs : List Char) : endBackslashes cs ≤ cs.length := by
  have bound := (List.takeWhile_prefix (l := cs.reverse) (· == '\\')).length_le
  rwa [List.length_reverse] at bound

/-- A backslash and the character that it skips make no odd number even. -/
theorem endBackslashes_pair (d : Char) (cs : List Char) :
    endBackslashes ('\\' :: d :: cs) % 2 = endBackslashes cs % 2 := by
  have bound := endBackslashes_le cs
  by_cases backslash : d = '\\'
  · subst backslash
    rw [endBackslashes_cons_self, endBackslashes_cons_self, List.length_cons]
    by_cases all : endBackslashes cs = cs.length
    · rw [if_pos all, if_pos rfl]
      omega
    · rw [if_neg all, if_neg (by omega)]
  · rw [endBackslashes_cons_self, endBackslashes_cons_of_ne backslash, List.length_cons,
      if_neg (by omega)]

theorem literalWidth_skip (d : Char) (cs : List Char) :
    literalWidth ('\\' :: d :: cs) = literalWidth cs + 2 := rfl

theorem literalWidth_quote (cs : List Char) : literalWidth ('"' :: cs) = 0 := rfl

theorem literalWidth_cons {c : Char} (plain : c ≠ '\\') (inside : c ≠ '"') (cs : List Char) :
    literalWidth (c :: cs) = literalWidth cs + 1 := by
  rw [literalWidth.eq_5 c cs] <;> simp_all

/-- Induction over a text as a literal passes over it: a backslash goes together with the character
that it skips, and a quote ends the literal. -/
theorem literalInduction {motive : List Char → Prop} (nil : motive []) (lone : motive ['\\'])
    (skip : ∀ d cs, motive cs → motive ('\\' :: d :: cs)) (quote : ∀ cs, motive ('"' :: cs))
    (other : ∀ c cs, c ≠ '\\' → c ≠ '"' → motive cs → motive (c :: cs)) (cs : List Char) :
    motive cs := by
  induction cs using literalWidth.induct with
  | case1 => exact nil
  | case2 => exact lone
  | case3 d cs ih => exact skip d cs ih
  | case4 cs => exact quote cs
  | case5 c cs single pair notQuote ih =>
      refine other c cs ?_ notQuote ih
      rintro rfl
      cases cs with
      | nil => exact single rfl rfl
      | cons d cs => exact pair d cs rfl rfl

/-- A literal that is not cut off by the end of the text stops at a quote. -/
theorem take_literalWidth_succ {cs : List Char} (closed : literalWidth cs < cs.length) :
    cs.take (literalWidth cs + 1) = cs.take (literalWidth cs) ++ ['"'] := by
  induction cs using literalInduction with
  | nil => exact absurd closed (by decide)
  | lone => exact absurd closed (by decide)
  | skip d cs ih =>
      rw [literalWidth_skip] at closed ⊢
      simpa using ih (by simpa using closed)
  | quote cs => rfl
  | other c cs plain inside ih =>
      rw [literalWidth_cons plain inside] at closed ⊢
      simpa using ih (by simpa using closed)

/-- The width of a literal does not depend on what follows its closing quote. -/
theorem literalWidth_take {cs : List Char} (closed : literalWidth cs < cs.length) {k : Nat}
    (room : literalWidth cs < k) : literalWidth (cs.take k) = literalWidth cs := by
  induction cs using literalInduction generalizing k with
  | nil => exact absurd closed (by decide)
  | lone => exact absurd closed (by decide)
  | skip d cs ih =>
      rw [literalWidth_skip] at closed room ⊢
      obtain ⟨k, rfl⟩ := Nat.exists_eq_add_of_le' (show 2 ≤ k by omega)
      rw [List.take_succ_cons, List.take_succ_cons, literalWidth_skip,
        ih (by simpa using closed) (by omega)]
  | quote cs =>
      obtain ⟨k, rfl⟩ := Nat.exists_eq_succ_of_ne_zero (show k ≠ 0 by omega)
      rfl
  | other c cs plain inside ih =>
      rw [literalWidth_cons plain inside] at closed room ⊢
      obtain ⟨k, rfl⟩ := Nat.exists_eq_succ_of_ne_zero (show k ≠ 0 by omega)
      rw [List.take_succ_cons, literalWidth_cons plain inside,
        ih (by simpa using closed) (by omega)]

/-- A quote inside a literal stands behind a backslash. -/
theorem getLast?_of_take_literalWidth {cs front back : List Char}
    (inside : cs.take (literalWidth cs) = front ++ '"' :: back) :
    front.getLast? = some '\\' := by
  induction cs using literalInduction generalizing front with
  | nil => simp at inside
  | lone =>
      cases front with
      | nil => exact absurd (List.cons.inj inside).1 (by decide)
      | cons a front => exact absurd (List.cons.inj inside).2 (by simp)
  | skip d cs ih =>
      rw [literalWidth_skip, List.take_succ_cons, List.take_succ_cons] at inside
      cases front with
      | nil => exact absurd (List.cons.inj inside).1 (by decide)
      | cons a front =>
          obtain ⟨rfl, behind⟩ := List.cons.inj inside
          cases front with
          | nil => rfl
          | cons b front =>
              have last := ih (List.cons.inj behind).2
              simp [List.getLast?_cons, last]
  | quote cs => simp [literalWidth_quote] at inside
  | other c cs plain notQuote ih =>
      rw [literalWidth_cons plain notQuote, List.take_succ_cons] at inside
      cases front with
      | nil => exact absurd (List.cons.inj inside).1 notQuote
      | cons a front =>
          have last := ih (List.cons.inj inside).2
          simp [List.getLast?_cons, last]

/-- Where quotes are not escaped, a literal ends behind its text exactly if the text holds no quote
and its last backslashes come in pairs. -/
theorem literalWidth_append_quote_iff (cs rest : List Char) (unescaped : ¬ ['\\', '"'] <:+: cs) :
    literalWidth (cs ++ '"' :: rest) = cs.length ↔ '"' ∉ cs ∧ endBackslashes cs % 2 = 0 := by
  induction cs using literalInduction with
  | nil => simp [literalWidth_quote, endBackslashes]
  | lone => simp [literalWidth_skip, endBackslashes]
  | skip d cs ih =>
      have notQuote : d ≠ '"' := fun same => unescaped ⟨[], cs, by simp [same]⟩
      have ih := ih fun inside => unescaped (List.infix_cons (List.infix_cons inside))
      rw [List.cons_append, List.cons_append, literalWidth_skip, endBackslashes_pair]
      simpa [notQuote.symm] using ih
  | quote cs => simp [literalWidth_quote]
  | other c cs plain inside ih =>
      have ih := ih fun inside => unescaped (List.infix_cons inside)
      rw [List.cons_append, literalWidth_cons plain inside, endBackslashes_cons_of_ne plain]
      simpa [Ne.symm inside] using ih

/-- A text that stands for itself between quotes. -/
structure Verbatim (cs : List Char) : Prop where
  noQuote : '"' ∉ cs
  noNewline : ¬ ['\\', 'n'] <:+: cs
  paired : endBackslashes cs % 2 = 0

/-- **A literal is read as the text that was put between quotes exactly if that is verbatim**,
whatever follows it. -/
theorem unescape_take_eq_iff (cs rest : List Char) :
    unescape ((cs ++ '"' :: rest).take (literalWidth (cs ++ '"' :: rest))) = cs ↔ Verbatim cs := by
  constructor
  · intro same
    have short := length_unescape_le ((cs ++ '"' :: rest).take (literalWidth (cs ++ '"' :: rest)))
    rw [same, List.length_take] at short
    -- The literal reaches the end of the text; what it takes from behind the text is nothing.
    have reached : cs.length ≤ literalWidth (cs ++ '"' :: rest) := by omega
    rw [List.take_append, List.take_of_length_le reached] at same
    have exact := eq_nil_of_unescape_append same
    have width : literalWidth (cs ++ '"' :: rest) = cs.length := by
      rw [List.take_eq_nil_iff] at exact
      rcases exact with none | empty
      · omega
      · nomatch empty
    rw [exact, List.append_nil, unescape_eq_self_iff] at same
    obtain ⟨noQuote, paired⟩ := (literalWidth_append_quote_iff cs rest same.1).mp width
    exact ⟨noQuote, same.2, paired⟩
  · rintro ⟨noQuote, noNewline, paired⟩
    have unescaped : ¬ ['\\', '"'] <:+: cs := fun inside => noQuote (inside.subset (by simp))
    rw [(literalWidth_append_quote_iff cs rest unescaped).mpr ⟨noQuote, paired⟩,
      List.take_left' rfl]
    exact unescape_eq_self_iff.mpr ⟨unescaped, noNewline⟩

theorem Verbatim.width {cs : List Char} (verbatim : Verbatim cs) (rest : List Char) :
    literalWidth (cs ++ '"' :: rest) = cs.length :=
  (literalWidth_append_quote_iff cs rest fun inside => verbatim.noQuote (inside.subset (by simp))).mpr
    ⟨verbatim.noQuote, verbatim.paired⟩

end Token

end BufferLisp
