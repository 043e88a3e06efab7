import BufferLisp.Proofs.Number.ReadBack
import BufferLisp.Proofs.Source.Grammar
import BufferLisp.Proofs.Source.Literal
import BufferLisp.Value.Printer

/-!
# Reading what was printed

A value reads back as an equal value exactly if it is `Readable` (`read_print_iff`).  Readability is
a condition on each part of the value by itself: on its numbers, its strings and the names of its
symbols.

That a readable value reads back is shown for the text of the value with anything behind it that ends
an atom, since an item of a list is followed by a blank or a parenthesis.  Conversely, an item that is
not readable cannot be saved by its neighbours.  A symbol that was read has a readable name, wherever
it was read; a number is read from all the characters of its text; and a string that runs on into the
text behind it does not become equal by that.  So in a list the items are read one by one, each from
its own text, up to the first that is not readable, and there the reading is not equal.
-/

set_option autoImplicit false

namespace BufferLisp

/-- The name of a symbol that reads back: an atom that is neither a constant nor a numeral. -/
structure ReadableName (name : List Char) : Prop where
  nonempty : name ≠ []
  plain : ∀ c ∈ name, Token.isDelimiter c = false
  notLiteral : name.head? ≠ some '"'
  notQuote : name.head? ≠ some '\''
  notTrue : name ≠ ['t']
  notNil : name ≠ ['n', 'i', 'l']
  notNumeral : ¬ Number.IsNumeral name

/-- A word that is read as one atom: it is no numeral, and it may be a constant. -/
structure IsWord (name : List Char) : Prop where
  nonempty : name ≠ []
  plain : ∀ c ∈ name, Token.isDelimiter c = false
  notLiteral : name.head? ≠ some '"'
  notQuote : name.head? ≠ some '\''
  notNumeral : ¬ Number.IsNumeral name

/-- Whether characters are a word can be decided. -/
instance (name : List Char) : Decidable (IsWord name) :=
  decidable_of_iff
    (name ≠ [] ∧ name.all (!Token.isDelimiter ·) = true ∧ name.head? ≠ some '"' ∧
      name.head? ≠ some '\'' ∧ (Number.Numeral.ofChars? name).isSome = false)
    ⟨fun ⟨nonempty, plain, notLiteral, notQuote, other⟩ =>
      ⟨nonempty, by simpa using plain, notLiteral, notQuote, by
        rw [← Number.Numeral.isSome_ofChars?_iff, other]
        decide⟩,
    fun word => ⟨word.nonempty, by simpa using word.plain, word.notLiteral, word.notQuote, by
      rw [Bool.eq_false_iff, Ne, Number.Numeral.isSome_ofChars?_iff]
      exact word.notNumeral⟩⟩

/-- A readable name is a word. -/
theorem ReadableName.isWord {name : List Char} (readable : ReadableName name) : IsWord name :=
  ⟨readable.nonempty, readable.plain, readable.notLiteral, readable.notQuote, readable.notNumeral⟩

namespace Value

mutual

/-- The condition on the parts of a value under which it reads back. -/
def Readable : Value → Prop
  | nil => True
  | bool b => b = true
  | num x => Number.Readable x
  | nan _ => False
  | str s => Token.Verbatim s.toList
  | sym name => ReadableName name.toList
  | list items => AllReadable items
  | fn _ _ => False
  | prim _ => False

/-- Values that are all readable. -/
def AllReadable : List Value → Prop
  | [] => True
  | v :: rest => Readable v ∧ AllReadable rest

end

/-! ## Texts -/

theorem chars_str (s : String) : chars (.str s) = '"' :: (s.toList ++ ['"']) := rfl

theorem chars_sym (name : String) : chars (.sym name) = name.toList := rfl

theorem chars_list (items : List Value) :
    chars (.list items) = '(' :: (charsSpaced items ++ [')']) := rfl

theorem charsSpaced_cons (v : Value) (vs : List Value) :
    charsSpaced (v :: vs) = v.chars ++ charsAfter vs := rfl

end Value

/-! ## Atoms -/

/-- Characters that are part of an atom from its start on are read as one. -/
theorem reads_atom {c : Char} {cs : List Char} (starts : StartsAtom c)
    (plain : ∀ d ∈ cs, Token.isDelimiter d = false) {rest : List Char}
    (ends : Token.EndsAtom rest) :
    Reads (c :: cs ++ rest) (Token.atomValue (c :: cs)) (cs.length + 1) := by
  have all : ∀ d ∈ c :: cs, Token.isDelimiter d = false := by
    intro d member
    rcases List.mem_cons.mp member with rfl | member
    · exact starts.1
    · exact plain d member
  have reads := Reads.atom starts (cs ++ rest)
  rwa [← List.cons_append, Token.atomPart_append all ends] at reads

theorem isBlank_of_isDigit {c : Char} (digit : c.isDigit = true) : Text.isBlank c = false := by
  have range : 48 ≤ c.toNat ∧ c.toNat ≤ 57 := by
    simpa [Char.isDigit, UInt32.le_iff_toNat_le] using digit
  simp only [Text.isBlank, CharRange.anyContains, Text.blankRanges, CharRange.contains,
    List.any_cons, List.any_nil, Bool.or_false, Bool.or_eq_false_iff, Bool.and_eq_false_iff,
    decide_eq_false_iff_not]
  omega

theorem startsAtom_of_isDigit {c : Char} (digit : c.isDigit = true) : StartsAtom c := by
  have other : ∀ {d : Char}, d.isDigit = false → c ≠ d := by
    rintro d notDigit rfl
    rw [digit] at notDigit
    nomatch notDigit
  refine ⟨?_, other (by decide), other (by decide)⟩
  simp [Token.isDelimiter, isBlank_of_isDigit digit, @other '(' (by decide),
    @other ')' (by decide)]

/-- The text of a number is an atom. -/
theorem startsAtom_of_inText {c : Char} (text : Number.InText c) : StartsAtom c := by
  rcases text with digit | letter
  · exact startsAtom_of_isDigit digit
  · have all : "+-.INaefinty".toList.all (StartsAtom ·) = true := by decide
    exact of_decide_eq_true (List.all_eq_true.mp all c letter)

theorem reads_number (x : Float) {rest : List Char} (ends : Token.EndsAtom rest) :
    Reads (Number.chars x ++ rest) (Token.atomValue (Number.chars x)) (Number.chars x).length := by
  obtain ⟨some, text⟩ := Number.inText_chars x
  obtain ⟨c, cs, same⟩ := List.exists_cons_of_ne_nil some
  rw [same] at text ⊢
  refine reads_atom (startsAtom_of_inText (text c List.mem_cons_self)) (fun d member => ?_) ends
  exact (startsAtom_of_inText (text d (List.mem_cons_of_mem c member))).1

theorem reads_word {name : List Char} (word : IsWord name) {rest : List Char}
    (ends : Token.EndsAtom rest) :
    Reads (name ++ rest) (Token.atomValue name) name.length := by
  obtain ⟨c, cs, rfl⟩ := List.exists_cons_of_ne_nil word.nonempty
  have starts : StartsAtom c :=
    ⟨word.plain c List.mem_cons_self, fun same => word.notQuote (congrArg some same),
      fun same => word.notLiteral (congrArg some same)⟩
  exact reads_atom starts (fun d member => word.plain d (List.mem_cons_of_mem c member)) ends

namespace Token

theorem atomValue_of_numeral {name : List Char} {x : Float}
    (numeral : Number.ofChars? name = some x) : atomValue name = .num x := by
  have notTrue : name ≠ ['t'] := by
    rintro rfl
    nomatch numeral
  have notNil : name ≠ ['n', 'i', 'l'] := by
    rintro rfl
    nomatch numeral
  rw [atomValue, if_neg notTrue, if_neg notNil, numeral]

theorem ofChars?_eq_none {name : List Char} (other : ¬ Number.IsNumeral name) :
    Number.ofChars? name = none := by
  rwa [← Number.isSome_ofChars?_iff, Bool.not_eq_true, Option.isSome_eq_false_iff,
    Option.isNone_iff_eq_none] at other

theorem atomValue_of_name {name : List Char} (readable : ReadableName name) :
    atomValue name = .sym (String.ofList name) := by
  rw [atomValue, if_neg readable.notTrue, if_neg readable.notNil,
    ofChars?_eq_none readable.notNumeral]

end Token

/-- What the kind of a value that was read says about it. -/
def Value.IsRead : Value → Prop
  | bool b => b = true
  | sym name => ReadableName name.toList
  | nan _ => False
  | fn _ _ => False
  | prim _ => False
  | _ => True

/-- An atom that is read as a symbol is a readable name. -/
theorem isRead_atomValue {c : Char} (starts : StartsAtom c) (cs : List Char) :
    (Token.atomValue (Token.atomPart (c :: cs))).IsRead := by
  have plain : ∀ d ∈ Token.atomPart (c :: cs), Token.isDelimiter d = false :=
    fun d member => Token.isDelimiter_of_mem_atomPart member
  have head : (Token.atomPart (c :: cs)).head? = some c := by
    rw [Token.atomPart_cons starts.1]
    rfl
  unfold Token.atomValue
  split
  · exact rfl
  · next notTrue =>
    split
    · trivial
    · next notNil =>
      split
      · trivial
      · next other =>
        have notNumeral : ¬ Number.IsNumeral (Token.atomPart (c :: cs)) := by
          rw [← Number.isSome_ofChars?_iff, other]
          decide
        rw [Value.IsRead, String.toList_ofList]
        refine ⟨?_, plain, ?_, ?_, notTrue, notNil, notNumeral⟩
        · rw [Token.atomPart_cons starts.1]
          exact List.cons_ne_nil _ _
        · rw [head]
          exact fun same => starts.2.2 (Option.some.inj same)
        · rw [head]
          exact fun same => starts.2.1 (Option.some.inj same)

theorem Reads.isRead {cs : List Char} {w : Value} {n : Nat} (reads : Reads cs w n) : w.IsRead := by
  induction cs generalizing n with
  | nil => nomatch reads
  | cons c cs ih =>
      cases reads with
      | blank _ behind => exact ih behind
      | quote _ => trivial
      | literal _ => trivial
      | atom starts _ => exact isRead_atomValue starts cs
      | list _ => trivial

/-! ## Readable values read back -/

theorem endsAtom_charsAfter (vs : List Value) (rest : List Char) :
    Token.EndsAtom (Value.charsAfter vs ++ ')' :: rest) := by
  intro c head
  cases vs with
  | nil =>
      obtain rfl : ')' = c := Option.some.inj head
      decide
  | cons v vs =>
      obtain rfl : ' ' = c := Option.some.inj head
      decide

theorem reads_literal {s : String} (verbatim : Token.Verbatim s.toList) (rest : List Char) :
    Reads ('"' :: (s.toList ++ '"' :: rest)) (.str s) (s.toList.length + 2) := by
  have reads := Reads.literal (s.toList ++ '"' :: rest)
  have text : Token.literalText
      ((s.toList ++ '"' :: rest).take (Token.literalWidth (s.toList ++ '"' :: rest))) = s := by
    rw [← String.toList_inj, Token.toList_literalText]
    exact (Token.unescape_take_eq_iff s.toList rest).mpr verbatim
  rwa [text, verbatim.width rest] at reads

/-- A space in front of the first item, if there is one, is passed over. -/
theorem reads_charsAfter {vs ws : List Value} {rest : List Char}
    (items : ReadsItems (Value.charsSpaced vs ++ ')' :: rest) ws ((Value.charsSpaced vs).length + 1)) :
    ReadsItems (Value.charsAfter vs ++ ')' :: rest) ws ((Value.charsAfter vs).length + 1) := by
  cases vs with
  | nil => exact items
  | cons v vs => exact items.blank (by decide)

/-- The text of a list is read if the texts of its items are. -/
theorem reads_listText {vs ws : List Value} {rest : List Char}
    (items : ReadsItems (Value.charsSpaced vs ++ ')' :: rest) ws
      ((Value.charsSpaced vs).length + 1)) :
    Reads ((Value.list vs).chars ++ rest) (.list ws) (Value.list vs).chars.length := by
  have reads := Reads.list items
  simpa [Value.chars_list] using reads

/-- The texts of items are read one after the other. -/
theorem readsItems_charsSpaced_cons {v w : Value} {vs ws : List Value} {rest : List Char}
    (first : Reads (v.chars ++ (Value.charsAfter vs ++ ')' :: rest)) w v.chars.length)
    (others : ReadsItems (Value.charsSpaced vs ++ ')' :: rest) ws
      ((Value.charsSpaced vs).length + 1)) :
    ReadsItems (Value.charsSpaced (v :: vs) ++ ')' :: rest) (w :: ws)
      ((Value.charsSpaced (v :: vs)).length + 1) := by
  have others := reads_charsAfter others
  have drop := @List.drop_left Char v.chars (Value.charsAfter vs ++ ')' :: rest)
  have items := ReadsItems.cons first (drop ▸ others)
  simpa [Value.charsSpaced_cons, Nat.add_assoc] using items

mutual

/-- **The text of a readable value is read as an equal value**, whatever follows that ends an
atom. -/
theorem reads_chars (v : Value) (readable : v.Readable) (rest : List Char)
    (ends : Token.EndsAtom rest) :
    ∃ w, Reads (v.chars ++ rest) w v.chars.length ∧ w.equal v = true := by
  match v with
  | .nil =>
      have word : IsWord ['n', 'i', 'l'] := by decide
      exact ⟨.nil, reads_word word ends, rfl⟩
  | .bool b =>
      obtain rfl : b = true := readable
      have word : IsWord ['t'] := by decide
      exact ⟨.bool true, reads_word word ends, rfl⟩
  | .num x =>
      obtain ⟨y, numeral, equal⟩ := Number.ofChars?_chars readable
      have reads := reads_number x ends
      rw [Token.atomValue_of_numeral numeral] at reads
      exact ⟨.num y, reads, equal⟩
  | .str s =>
      have verbatim : Token.Verbatim s.toList := readable
      have reads := reads_literal verbatim rest
      refine ⟨.str s, ?_, beq_self_eq_true s⟩
      simpa [Value.chars_str] using reads
  | .sym name =>
      have reads := reads_word readable.isWord ends
      rw [Token.atomValue_of_name readable, String.ofList_toList] at reads
      exact ⟨.sym name, reads, beq_self_eq_true name⟩
  | .list items =>
      obtain ⟨ws, reads, equal⟩ := reads_charsSpaced items readable rest
      exact ⟨.list ws, reads_listText reads, equal⟩
  | .nan _ => exact readable.elim
  | .fn _ _ => exact readable.elim
  | .prim _ => exact readable.elim

/-- The texts of readable items are read one by one. -/
theorem reads_charsSpaced (vs : List Value) (readable : Value.AllReadable vs) (rest : List Char) :
    ∃ ws, ReadsItems (Value.charsSpaced vs ++ ')' :: rest) ws ((Value.charsSpaced vs).length + 1) ∧
      Value.equalAll ws vs = true := by
  match vs with
  | [] =>
      exact ⟨[], .close areMarks_nil rest, rfl⟩
  | v :: vs =>
      obtain ⟨w, first, same⟩ := reads_chars v readable.1 _ (endsAtom_charsAfter vs rest)
      obtain ⟨ws, others, all⟩ := reads_charsSpaced vs readable.2 rest
      exact ⟨w :: ws, readsItems_charsSpaced_cons first others, by simp [Value.equalAll, same, all]⟩

end

/-! ## Only readable values read back -/

theorem items_of_charsAfter {vs ws : List Value} {n : Nat} {rest : List Char}
    (items : ReadsItems (Value.charsAfter vs ++ ')' :: rest) ws n) :
    ∃ m, ReadsItems (Value.charsSpaced vs ++ ')' :: rest) ws m := by
  cases vs with
  | nil => exact ⟨n, items⟩
  | cons v vs => exact items.tail (by decide)

/-- What quote marks quote is a list. -/
theorem quotedTimes_eq_list {v : Value} {quotes : Nat} (some : 0 < quotes) :
    ∃ items, v.quotedTimes quotes = .list items := by
  obtain ⟨quotes, rfl⟩ := Nat.exists_eq_succ_of_ne_zero some.ne'
  exact ⟨_, rfl⟩

theorem eq_list_of_equal {items : List Value} {v : Value}
    (equal : (Value.list items).equal v = true) : ∃ others, v = .list others := by
  cases v with
  | list others => exact ⟨others, rfl⟩
  | _ => simp [Value.equal] at equal

/-- What is read from quote marks is not printed with them, so it is not equal to what was printed. -/
theorem not_equal_of_marks {front after rest : List Char} {v w : Value} (marks : AreMarks front)
    (some : 0 < front.count '\'') (text : v.chars ++ rest = front ++ after) :
    ¬ (w.quotedTimes (front.count '\'')).equal v = true := by
  intro equal
  obtain ⟨items, quoted⟩ := @quotedTimes_eq_list w _ some
  rw [quoted] at equal
  obtain ⟨others, rfl⟩ := eq_list_of_equal equal
  cases front with
  | nil => exact absurd some (by decide)
  | cons c front =>
      obtain ⟨rfl, -⟩ := List.cons.inj text
      rcases marks '(' List.mem_cons_self with blank | same
      · exact absurd blank (by decide)
      · exact absurd same (by decide)

/-- The kinds of values that are told from the value alone: what is read is never false, a NaN, a
function or a primitive, and a symbol that is read has a readable name. -/
theorem Value.IsRead.of_equal {v w : Value} (read : w.IsRead) (equal : w.equal v = true) :
    v.IsRead := by
  cases w with
  | bool b =>
      cases v with
      | bool c =>
          obtain rfl : b = c := eq_of_beq equal
          exact read
      | _ => simp [Value.equal] at equal
  | sym name =>
      cases v with
      | sym other =>
          obtain rfl : name = other := eq_of_beq equal
          exact read
      | _ => simp [Value.equal] at equal
  | nan place => exact read.elim
  | fn params body => exact read.elim
  | prim p => exact read.elim
  | nil => cases v <;> simp_all [Value.equal, Value.IsRead]
  | num x => cases v <;> simp_all [Value.equal, Value.IsRead]
  | str s => cases v <;> simp_all [Value.equal, Value.IsRead]
  | list items => cases v <;> simp_all [Value.equal, Value.IsRead]

/-- A number is read only from a numeral. -/
theorem readable_of_reads_number {x : Float} {w : Value} {n : Nat} {rest : List Char}
    (ends : Token.EndsAtom rest) (reads : Reads (Number.chars x ++ rest) w n)
    (equal : w.equal (.num x) = true) : Number.Readable x := by
  by_contra unreadable
  obtain ⟨rfl, -⟩ := reads.unique (reads_number x ends)
  have none := Token.ofChars?_eq_none (Number.not_isNumeral_chars unreadable)
  revert equal
  unfold Token.atomValue
  rw [none]
  split
  · simp [Value.equal]
  · split
    · simp [Value.equal]
    · simp [Value.equal]

/-- A string is read only from a verbatim text. -/
theorem verbatim_of_reads {s : String} {w : Value} {n : Nat} {rest : List Char}
    (reads : Reads ((Value.str s).chars ++ rest) w n) (equal : w.equal (.str s) = true) :
    Token.Verbatim s.toList := by
  have literal := Reads.literal (s.toList ++ '"' :: rest)
  rw [Value.chars_str, List.cons_append, List.append_assoc] at reads
  obtain ⟨rfl, -⟩ := reads.unique literal
  have same := congrArg String.toList (eq_of_beq equal)
  rw [Token.toList_literalText] at same
  exact (Token.unescape_take_eq_iff s.toList rest).mp same

mutual

/-- **A value that reads back is readable**, whatever follows that ends an atom. -/
theorem readable_of_reads (v : Value) {w : Value} {n : Nat} {rest : List Char}
    (ends : Token.EndsAtom rest) (reads : Reads (v.chars ++ rest) w n)
    (equal : w.equal v = true) : v.Readable := by
  have read := reads.isRead.of_equal equal
  match v with
  | .nil => trivial
  | .bool b => exact read
  | .num x => exact readable_of_reads_number ends reads equal
  | .str s => exact verbatim_of_reads reads equal
  | .sym name => exact read
  | .list items =>
      rw [Value.chars_list, List.cons_append, List.append_assoc] at reads
      obtain ⟨ws, m, rfl, -, items⟩ := reads.items
      exact readable_of_items _ items equal
  | .nan _ => exact read.elim
  | .fn _ _ => exact read.elim
  | .prim _ => exact read.elim

/-- Items that read back one by one are readable. -/
theorem readable_of_items (vs : List Value) {ws : List Value} {n : Nat} {rest : List Char}
    (items : ReadsItems (Value.charsSpaced vs ++ ')' :: rest) ws n)
    (equal : Value.equalAll ws vs = true) : Value.AllReadable vs := by
  match vs with
  | [] => trivial
  | v :: vs =>
      rw [Value.charsSpaced_cons, List.append_assoc] at items
      generalize text : v.chars ++ (Value.charsAfter vs ++ ')' :: rest) = whole at items
      cases items with
      | @close front marks after =>
          -- Marks before the parenthesis are read as one item at most, and not as this one.
          cases quotes : front.count '\'' with
          | zero => simp [quotes, dangling, Value.equalAll] at equal
          | succ k =>
              have some : 0 < front.count '\'' := by omega
              rw [quotes] at equal
              obtain ⟨first, -⟩ := Bool.and_eq_true_iff.mp equal
              rw [← quotes] at first
              exact absurd first (not_equal_of_marks marks some text)
      | cons first others =>
          subst text
          obtain ⟨same, all⟩ := Bool.and_eq_true_iff.mp equal
          have ends := endsAtom_charsAfter vs rest
          have readable := readable_of_reads v ends first same
          obtain ⟨w, own, -⟩ := reads_chars v readable _ ends
          obtain ⟨-, rfl⟩ := first.unique own
          rw [List.drop_left] at others
          obtain ⟨m, others⟩ := items_of_charsAfter others
          exact ⟨readable, readable_of_items vs others all⟩

end

/-- Without an expression to read, only `nil` can be read back. -/
theorem readable_of_marks {front rest : List Char} {v w : Value} (marks : AreMarks front)
    (text : v.chars ++ [] = front ++ rest)
    (stop : rest = [] ∧ w = Value.nil.quotedTimes (front.count '\'') ∨
      (∃ cs, rest = ')' :: cs) ∧ w = (Value.sym "").quotedTimes (front.count '\''))
    (equal : w.equal v = true) : v.Readable := by
  rcases Nat.eq_zero_or_pos (front.count '\'') with none | some
  · rw [none] at stop
    rcases stop with ⟨-, rfl⟩ | ⟨⟨cs, rfl⟩, rfl⟩
    · cases v with
      | nil => trivial
      | _ => nomatch equal
    · cases v with
      | sym name =>
          obtain rfl : "" = name := eq_of_beq equal
          exact absurd text (by simp [Value.chars_sym])
      | _ => nomatch equal
  · rcases stop with ⟨-, rfl⟩ | ⟨-, rfl⟩
    · exact absurd equal (not_equal_of_marks marks some text)
    · exact absurd equal (not_equal_of_marks marks some text)

/-- **A value reads back as an equal value exactly if it is readable.** -/
theorem Value.read_print_iff (v : Value) :
    (∃ w, read v.print = .ok w ∧ w.equal v = true) ↔ v.Readable := by
  have text : v.print.toList.drop 0 = v.chars ++ [] := by
    rw [List.drop_zero, print, String.toList_ofList, List.append_nil]
  have ends : Token.EndsAtom [] := by simp [Token.EndsAtom]
  constructor
  · rintro ⟨w, reading, equal⟩
    have next : (Reader.ofSource v.print).next = (.ok w, (Reader.ofSource v.print).next.2) :=
      Prod.ext reading rfl
    rcases Reader.reads_of_next next with ⟨n, reads, -⟩ | ⟨front, rest, marks, split, stop⟩
    · exact readable_of_reads v ends (text ▸ reads) equal
    · exact readable_of_marks marks (text.symm.trans split) stop equal
  · intro readable
    obtain ⟨w, reads, equal⟩ := reads_chars v readable [] ends
    refine ⟨w, ?_, equal⟩
    have next := @Reader.next_of_reads (Reader.ofSource v.print) w _ (text ▸ reads)
    exact congrArg Prod.fst next

end BufferLisp
