import BufferLisp.Proofs.Source.Grammar
import BufferLisp.Proofs.Source.Literal

/-!
# Escapes in one pass

The end of a literal is found in one pass that takes each backslash together with the character
behind it, while its escapes are replaced in two passes that know nothing of such pairs.  `decode`
does both in one pass.  The two ways agree on every literal but those in which a pair of two
backslashes stands right before an `n` (`Reader.next_literal_iff`): there the second backslash makes
a line break with the `n`, although it is escaped itself.

A quote in a literal is always the second half of a pair, so the pass for quotes replaces what it
should.  The pass for line breaks replaces more: what it makes of a literal is what it makes of the
decoded text (`replacePair_decode`), and that still holds a backslash before an `n` exactly where a
pair of backslashes stood before one (`pairBeforeN_iff`).
-/

set_option autoImplicit false

namespace BufferLisp

/-! ## Replacing pairs -/

section ReplacePair

variable {first second result : Char}

/-- A character in front stays if what follows does not complete a pair with it. -/
theorem replacePair_of_head (c : Char) {cs : List Char} (head : cs.head? ≠ some second) :
    replacePair first second result (c :: cs) = c :: replacePair first second result cs := by
  cases cs with
  | nil => rfl
  | cons d cs => exact replacePair_cons (fun pair => head (congrArg some pair.2)) cs

/-- The second character of a pair comes out in front only if it was there. -/
theorem replacePair_eq_second (distinct : first ≠ second) (fresh : result ≠ second)
    {cs rest : List Char} (front : replacePair first second result cs = second :: rest) :
    ∃ after, cs = second :: after ∧ replacePair first second result after = rest := by
  cases cs with
  | nil => nomatch front
  | cons c cs =>
      by_cases same : c = first
      · subst same
        cases cs with
        | nil => exact absurd (List.cons.inj front).1 distinct
        | cons d cs =>
            by_cases pair : d = second
            · subst pair
              rw [replacePair_pair] at front
              exact absurd (List.cons.inj front).1 fresh
            · rw [replacePair_cons fun both => pair both.2] at front
              exact absurd (List.cons.inj front).1 distinct
      · rw [replacePair_cons_of_ne same] at front
        obtain ⟨rfl, rest⟩ := List.cons.inj front
        exact ⟨cs, rfl, rest⟩

/-- **No pair is left, and none is made.**  What comes out behind a first character is either the
next character, which did not complete a pair, or the result of another pair. -/
theorem absent_replacePair (distinct : first ≠ second) (notFirst : result ≠ first)
    (notSecond : result ≠ second) (cs : List Char) :
    ¬ [first, second] <:+: replacePair first second result cs := by
  fun_induction replacePair first second result cs with
  | case1 c d rest pair ih =>
      intro inside
      rcases List.infix_cons_iff.mp inside with front | behind
      · exact notFirst (List.cons_prefix_cons.mp front).1.symm
      · exact ih behind
  | case2 c d rest other ih =>
      intro inside
      rcases List.infix_cons_iff.mp inside with front | behind
      · obtain ⟨rfl, back, text⟩ := List.cons_prefix_cons.mp front
        obtain ⟨after, next, -⟩ := replacePair_eq_second distinct notSecond text.symm
        obtain ⟨rfl, -⟩ := List.cons.inj next
        simp at other
      · exact ih behind
  | case3 short noPair =>
      intro inside
      cases short with
      | nil => simp at inside
      | cons c others =>
          cases others with
          | nil => exact absurd inside.length_le (by simp)
          | cons d rest => exact noPair c d rest rfl

/-- Texts of which the same is made can be exchanged behind a character. -/
theorem replacePair_congr_cons (distinct : first ≠ second) (fresh : result ≠ second) (c : Char)
    {xs ys : List Char}
    (same : replacePair first second result xs = replacePair first second result ys) :
    replacePair first second result (c :: xs) = replacePair first second result (c :: ys) := by
  by_cases front : xs.head? = some second
  · obtain ⟨xs, rfl⟩ := List.head?_eq_some_iff.mp front
    rw [replacePair_cons_of_ne distinct.symm] at same
    obtain ⟨ys, rfl, behind⟩ := replacePair_eq_second distinct fresh same.symm
    by_cases pair : c = first
    · subst pair
      rw [replacePair_pair, replacePair_pair, behind]
    · rw [replacePair_cons_of_ne pair, replacePair_cons_of_ne pair,
        replacePair_cons_of_ne distinct.symm, replacePair_cons_of_ne distinct.symm, behind]
  · have front' : ys.head? ≠ some second := by
      intro there
      obtain ⟨ys, rfl⟩ := List.head?_eq_some_iff.mp there
      rw [replacePair_cons_of_ne distinct.symm] at same
      obtain ⟨after, rfl, -⟩ := replacePair_eq_second distinct fresh same
      exact front rfl
    rw [replacePair_of_head c front, replacePair_of_head c front', same]

end ReplacePair

namespace Token

/-! ## One pass -/

/-- What a backslash and the character behind it stand for. -/
def pairText (d : Char) : List Char :=
  if d = '"' then ['"'] else if d = 'n' then ['\n'] else ['\\', d]

/-- The text that a literal stands for, in one pass over the characters behind its opening quote: a
backslash goes together with the character behind it, any other character stands for itself, and the
first quote that is not the second half of a pair ends the literal. -/
def decode : List Char → List Char
  | [] => []
  | '\\' :: d :: rest => pairText d ++ decode rest
  | '"' :: _ => []
  | c :: rest => c :: decode rest

/-- Whether a pair of two backslashes in a literal stands right before an `n`. -/
def pairBeforeN : List Char → Bool
  | [] => false
  | '\\' :: d :: rest => d == '\\' && rest.head? == some 'n' || pairBeforeN rest
  | '"' :: _ => false
  | _ :: rest => pairBeforeN rest

theorem decode_cons {c : Char} (plain : c ≠ '\\') (inside : c ≠ '"') (cs : List Char) :
    decode (c :: cs) = c :: decode cs :=
  decode.eq_4 c cs (fun _ _ backslash _ => plain backslash) inside

theorem pairBeforeN_cons {c : Char} (plain : c ≠ '\\') (inside : c ≠ '"') (cs : List Char) :
    pairBeforeN (c :: cs) = pairBeforeN cs :=
  pairBeforeN.eq_4 c cs (fun _ _ backslash _ => plain backslash) inside

/-- A quote in front ends a literal, so none comes first between the quotes. -/
theorem head?_take_literalWidth (cs : List Char) :
    (cs.take (literalWidth cs)).head? ≠ some '"' := by
  cases cs with
  | nil => simp
  | cons c cs =>
      by_cases quote : c = '"'
      · subst quote
        simp [literalWidth_quote]
      · intro head
        rw [List.head?_take] at head
        split at head
        · nomatch head
        · exact quote (Option.some.inj head)

/-- **What the passes make of a literal is what the last of them makes of the decoded text.** -/
theorem replacePair_decode (cs : List Char) :
    unescape (cs.take (literalWidth cs)) = replacePair '\\' 'n' '\n' (decode cs) := by
  induction cs using literalInduction with
  | nil => rfl
  | lone => rfl
  | quote cs => rfl
  | skip d cs ih =>
      unfold unescape at ih ⊢
      have taken : ('\\' :: d :: cs).take (literalWidth cs + 2) =
          '\\' :: d :: cs.take (literalWidth cs) := rfl
      rw [literalWidth_skip, taken, decode, pairText]
      by_cases quote : d = '"'
      · subst quote
        rw [if_pos rfl, replacePair_pair, List.singleton_append, replacePair_cons_of_ne (by decide),
          replacePair_cons_of_ne (by decide), ih]
      · rw [if_neg quote, replacePair_cons fun pair => quote pair.2,
          replacePair_of_head d (head?_take_literalWidth cs)]
        by_cases newline : d = 'n'
        · subst newline
          rw [if_pos rfl, replacePair_pair, List.singleton_append,
            replacePair_cons_of_ne (by decide), ih]
        · rw [if_neg newline]
          have behind := replacePair_congr_cons (by decide) (by decide) d ih
          exact replacePair_congr_cons (by decide) (by decide) '\\' behind
  | other c cs plain inside ih =>
      unfold unescape at ih ⊢
      rw [literalWidth_cons plain inside, List.take_succ_cons, decode_cons plain inside,
        replacePair_cons_of_ne plain, replacePair_cons_of_ne plain, replacePair_cons_of_ne plain,
        ih]

/-- A decoded text starts with an `n` exactly if the literal does. -/
theorem head?_decode_iff (cs : List Char) :
    (decode cs).head? = some 'n' ↔ cs.head? = some 'n' := by
  cases cs using literalInduction with
  | nil => exact Iff.rfl
  | lone => decide
  | quote cs => simp [decode]
  | skip d cs =>
      have front : (decode ('\\' :: d :: cs)).head? ≠ some 'n' := by
        rw [decode, pairText]
        split
        · simp
        · split <;> simp
      simp [front]
  | other c cs plain inside =>
      rw [decode_cons plain inside]
      rfl

/-- A backslash before an `n`, by the first character. -/
theorem backslashN_infix_cons (c : Char) (cs : List Char) :
    ['\\', 'n'] <:+: c :: cs ↔ c = '\\' ∧ cs.head? = some 'n' ∨ ['\\', 'n'] <:+: cs := by
  rw [List.infix_cons_iff, List.cons_prefix_cons, eq_comm]
  cases cs with
  | nil => simp
  | cons d cs => simp [List.cons_prefix_cons, eq_comm]

/-- **The decoded text holds a backslash before an `n` exactly if a pair of backslashes stood before
one.** -/
theorem pairBeforeN_iff (cs : List Char) :
    pairBeforeN cs = true ↔ ['\\', 'n'] <:+: decode cs := by
  induction cs using literalInduction with
  | nil => simp [pairBeforeN, decode]
  | lone => decide
  | quote cs => simp [pairBeforeN, decode]
  | skip d cs ih =>
      rw [pairBeforeN, decode, pairText, Bool.or_eq_true, ih]
      by_cases quote : d = '"'
      · subst quote
        rw [if_pos rfl, List.singleton_append, backslashN_infix_cons]
        simp
      · rw [if_neg quote]
        by_cases newline : d = 'n'
        · subst newline
          rw [if_pos rfl, List.singleton_append, backslashN_infix_cons]
          simp
        · rw [if_neg newline, List.cons_append, List.singleton_append, backslashN_infix_cons,
            backslashN_infix_cons, head?_decode_iff]
          simp [newline]
  | other c cs plain inside ih =>
      rw [pairBeforeN_cons plain inside, decode_cons plain inside, backslashN_infix_cons, ih]
      simp [plain]

end Token

/-! ## Reading literals -/

/-- At a quote, a reader reads the decoded text, with the line breaks that are left in it. -/
theorem Reader.next_literal {source : String} {i : Nat} (quote : source.toList[i]? = some '"') :
    (Reader.mk source i).next.1 = .ok (.str (String.ofList
      (replacePair '\\' 'n' '\n' (Token.decode (source.toList.drop (i + 1)))))) := by
  obtain ⟨inside, here⟩ := List.getElem?_eq_some_iff.mp quote
  have reads := Reads.literal (source.toList.drop (i + 1))
  rw [← here, ← List.drop_eq_getElem_cons inside] at reads
  rw [@next_of_reads ⟨source, i⟩ _ _ reads, ← Token.replacePair_decode]
  rfl

/-- **A literal is read as one pass decodes it, unless a pair of two backslashes stands right before
an `n`.**  At a quote, a reader reads the text that one pass decodes, with every backslash before an
`n` that is left in it made into a line break.  So it reads just what was decoded exactly if there
was no such pair. -/
theorem Reader.next_literal_iff {source : String} {i : Nat} (quote : source.toList[i]? = some '"') :
    (Reader.mk source i).next.1 = .ok (.str (String.ofList
        (replacePair '\\' 'n' '\n' (Token.decode (source.toList.drop (i + 1)))))) ∧
      ((Reader.mk source i).next.1 =
          .ok (.str (String.ofList (Token.decode (source.toList.drop (i + 1))))) ↔
        Token.pairBeforeN (source.toList.drop (i + 1)) = false) := by
  have next := next_literal quote
  refine ⟨next, ?_⟩
  rw [next, ← Bool.not_eq_true, Token.pairBeforeN_iff]
  constructor
  · intro same
    have texts := congrArg String.toList (Value.str.inj (Except.ok.inj same))
    rw [String.toList_ofList, String.toList_ofList] at texts
    exact absent_of_length_le (Nat.le_of_eq (congrArg List.length texts).symm)
  · intro absent
    rw [replacePair_of_absent absent]

/-- An escaped backslash before an escaped quote, a line break, an escape that means nothing, and
the end of the text behind a backslash. -/
theorem Reader.next_literal_iff_cut :
    (Reader.mk "a \"\\\\\\\"\\n\\t\\" 2).next.1 = .ok (.str "\\\\\"\n\\t\\") :=
  (@next_literal_iff "a \"\\\\\\\"\\n\\t\\" 2 (by decide)).2.mpr (by decide)

/-- Two backslashes before an `n` are a pair and an `n`, but they are read as a backslash and a line
break. -/
theorem Reader.next_literal_pairBeforeN :
    (Reader.mk "\"\\\\n\"" 0).next.1 = .ok (.str "\\\n") ∧
      Token.decode ("\"\\\\n\"".toList.drop 1) = ['\\', '\\', 'n'] ∧
      (Reader.mk "\"\\\\n\"" 0).next.1 ≠
        .ok (.str (String.ofList (Token.decode ("\"\\\\n\"".toList.drop 1)))) := by
  refine ⟨rfl, rfl, fun same => ?_⟩
  exact absurd (Value.str.inj (Except.ok.inj same)) (by decide)

end BufferLisp
