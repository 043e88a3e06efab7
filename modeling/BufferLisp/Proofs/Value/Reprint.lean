import BufferLisp.Proofs.Number.Scientific

/-!
# Reading a printed text and printing it again

Many values do not read back.  False reads back as `nil`, a number with an exponent as a symbol, and
so do the words that stand for infinities, functions and primitives.  But each of these is printed as
a single atom, and what is read from an atom that is no numeral is printed as that atom.  A numeral
that a number is printed as is read as an equal number, and equal numbers have the same text.  So
what is read from a printed text is printed as the same text (`print_read_print`), as long as the
strings and the symbols in the value are printed as what they are (`Legible`).
-/

set_option autoImplicit false

namespace BufferLisp

/-! ## Atoms -/

/-- What an atom that is no numeral is read as is printed as that atom. -/
theorem chars_atomValue {name : List Char} (notNumeral : ¬ Number.IsNumeral name) :
    (Token.atomValue name).chars = name := by
  rw [Token.atomValue]
  split
  · next isTrue => exact isTrue.symm
  · split
    · next isNil => exact isNil.symm
    · rw [Token.ofChars?_eq_none notNumeral]
      exact String.toList_ofList

/-- What the text of a number is read as is printed as that text. -/
theorem Number.chars_atomValue_chars (x : Float) :
    (Token.atomValue (Number.chars x)).chars = Number.chars x := by
  by_cases readable : Readable x
  · have below : rank x < infinityRank := of_decide_eq_true readable.1
    rw [Token.atomValue_of_numeral (ofChars?_chars_eq readable)]
    exact chars_eq_of_equal (equal_unsignedZero below.le)
  · exact chars_atomValue (not_isNumeral_chars readable)

namespace Value

mutual

/-- The strings and symbols in the lists of the value are printed as they are read: a string has no
escapes, and a symbol is a word. -/
def Legible : Value → Prop
  | str s => Token.Verbatim s.toList
  | sym name => IsWord name.toList
  | list items => AllLegible items
  | _ => True

/-- Values that are all legible. -/
def AllLegible : List Value → Prop
  | [] => True
  | v :: rest => Legible v ∧ AllLegible rest

end

end Value

/-! ## Reading again -/

theorem reads_word_again {name : List Char} (word : IsWord name) {rest : List Char}
    (ends : Token.EndsAtom rest) : ∃ w, Reads (name ++ rest) w name.length ∧ w.chars = name :=
  ⟨Token.atomValue name, reads_word word ends, chars_atomValue word.notNumeral⟩

mutual

/-- **What is read from the text of a legible value is printed as that text**, whatever follows that
ends an atom. -/
theorem reads_again (v : Value) (legible : v.Legible) (rest : List Char)
    (ends : Token.EndsAtom rest) :
    ∃ w, Reads (v.chars ++ rest) w v.chars.length ∧ w.chars = v.chars := by
  match v with
  | .nil => exact @reads_word_again "nil".toList (by decide) rest ends
  | .bool true => exact @reads_word_again ['t'] (by decide) rest ends
  | .bool false => exact @reads_word_again "nil".toList (by decide) rest ends
  | .num x => exact ⟨_, reads_number x ends, Number.chars_atomValue_chars x⟩
  | .nan _ => exact @reads_word_again Number.nanText (by decide) rest ends
  | .str s =>
      have verbatim : Token.Verbatim s.toList := legible
      have reads := reads_literal verbatim rest
      refine ⟨.str s, ?_, rfl⟩
      simpa [Value.chars_str] using reads
  | .sym name => exact reads_word_again legible ends
  | .list items =>
      obtain ⟨ws, reads, same, -⟩ := readsItems_again items legible rest
      refine ⟨.list ws, reads_listText reads, ?_⟩
      rw [Value.chars_list, Value.chars_list, same]
  | .fn _ _ => exact @reads_word_again "<function>".toList (by decide) rest ends
  | .prim _ => exact @reads_word_again "<subr>".toList (by decide) rest ends

/-- What is read from the texts of legible items is printed as these texts. -/
theorem readsItems_again (vs : List Value) (legible : Value.AllLegible vs) (rest : List Char) :
    ∃ ws, ReadsItems (Value.charsSpaced vs ++ ')' :: rest) ws ((Value.charsSpaced vs).length + 1) ∧
      Value.charsSpaced ws = Value.charsSpaced vs ∧ Value.charsAfter ws = Value.charsAfter vs := by
  match vs with
  | [] =>
      exact ⟨[], .close areMarks_nil rest, rfl, rfl⟩
  | v :: vs =>
      obtain ⟨w, first, same⟩ := reads_again v legible.1 _ (endsAtom_charsAfter vs rest)
      obtain ⟨ws, others, -, after⟩ := readsItems_again vs legible.2 rest
      refine ⟨w :: ws, readsItems_charsSpaced_cons first others, ?_, ?_⟩
      · rw [Value.charsSpaced_cons, Value.charsSpaced_cons, same, after]
      · rw [Value.charsAfter, Value.charsAfter, same, after]

end

/-- **Printed text is a fixed point of reading and printing.**  The text of a legible value can be
read, and what is read has the same text, even where it is another value. -/
theorem Value.print_read_print {v : Value} (legible : v.Legible) :
    ∃ w, read v.print = .ok w ∧ w.print = v.print := by
  have text : v.print.toList = v.chars ++ [] := by
    rw [print, String.toList_ofList, List.append_nil]
  have ends : Token.EndsAtom [] := by simp [Token.EndsAtom]
  obtain ⟨w, reads, same⟩ := reads_again v legible [] ends
  exact ⟨w, read_of_reads (text ▸ reads), congrArg String.ofList same⟩

/-- False, a small number, an infinity, a zero with a sign, a NaN, a function and a primitive, none of
which reads back as it is, between the name of true and a string that ends in two backslashes. -/
theorem Value.print_read_print_unreadable :
    let v := list [sym "t", bool false, num 1e-7, list [num (1.0 / 0.0), num (-0.0), nan 4],
      fn ["x"] (str "\""), prim .car, str "a\\\\"]
    v.print = "(t nil 1e-7 (Infinity 0 NaN) <function> <subr> \"a\\\\\")" ∧ ¬ v.Readable ∧
      ∃ w, read v.print = .ok w ∧ w.print = v.print := by
  intro v
  have verbatim : Token.Verbatim "a\\\\".toList := ⟨by decide, by decide, by decide⟩
  have word : IsWord "t".toList := by decide
  have legible : v.Legible :=
    ⟨word, trivial, trivial, ⟨trivial, trivial, trivial, trivial⟩, trivial, trivial, verbatim, trivial⟩
  refine ⟨by decide +kernel, ?_, print_read_print legible⟩
  rintro ⟨-, notFalse, -⟩
  nomatch notFalse

end BufferLisp
