import BufferLisp.Proofs.Source.LastExpression

/-!
# Reading depends only on the text that is read

A reader that stops before the end of its text reads the same with any text added behind, and an
expression that ends within the text is read the same if the text is cut off right behind it
(`Reader.next_local`).

In the grammar this is the stability of an expression under adding and cutting off text.  Cutting off
was shown for the search from behind (`reads_take`).  Adding is safe wherever the expression does not
reach the end of the text: an atom that ends before it ends at a delimiter, a literal that ends before
it has its closing quote, and everything inside of a list ends before the parenthesis that closes it.

What is no expression depends on more than what is passed over.  Quote marks before a closing
parenthesis read as the symbol with the empty name, which is not there any more if the parenthesis is
cut off.
-/

set_option autoImplicit false

namespace BufferLisp

/-! ## Adding text behind an expression -/

namespace Token

/-- An atom that ends before the end of the text ends there whatever is added. -/
theorem atomPart_append_of_lt {cs : List Char} (stops : (atomPart cs).length < cs.length)
    (more : List Char) : atomPart (cs ++ more) = atomPart cs := by
  have parts : atomPart cs ++ cs.dropWhile (!isDelimiter ·) = cs :=
    List.takeWhile_append_dropWhile
  have stop := List.head?_dropWhile_not (!isDelimiter ·) cs
  cases behind : cs.dropWhile (!isDelimiter ·) with
  | nil =>
      rw [behind, List.append_nil] at parts
      rw [parts] at stops
      exact absurd stops (Nat.lt_irrefl _)
  | cons c rest =>
      rw [behind] at parts stop
      have ends : EndsAtom (c :: rest ++ more) := by
        intro d head
        obtain rfl : c = d := Option.some.inj head
        simpa using stop
      have plain : ∀ d ∈ atomPart cs, isDelimiter d = false := fun _ => isDelimiter_of_mem_atomPart
      have whole := atomPart_append plain ends
      rwa [← List.append_assoc, parts] at whole

/-- A literal that is closed stays as wide as it is. -/
theorem literalWidth_append {cs : List Char} (closed : literalWidth cs < cs.length)
    (more : List Char) : literalWidth (cs ++ more) = literalWidth cs := by
  induction cs using literalInduction with
  | nil => exact absurd closed (by decide)
  | lone => exact absurd closed (by decide)
  | skip d cs ih =>
      rw [literalWidth_skip] at closed
      rw [List.cons_append, List.cons_append, literalWidth_skip, literalWidth_skip,
        ih (by simpa using closed)]
  | quote cs => rfl
  | other c cs plain inside ih =>
      rw [literalWidth_cons plain inside] at closed
      rw [List.cons_append, literalWidth_cons plain inside, literalWidth_cons plain inside,
        ih (by simpa using closed)]

end Token

mutual

/-- **An expression that ends before the end of the text is read in the same way if text is
added.** -/
theorem Reads.append {cs : List Char} {v : Value} {n : Nat} (reads : Reads cs v n)
    (stops : n < cs.length) (more : List Char) : Reads (cs ++ more) v n := by
  match reads with
  | .blank blank reads => exact .blank blank (reads.append (by simpa using stops) more)
  | .quote reads => exact .quote (reads.append (by simpa using stops) more)
  | .literal cs =>
      rw [List.length_cons] at stops
      have same := Reads.literal (cs ++ more)
      rwa [Token.literalWidth_append (by omega), List.take_append_of_le_length (by omega)] at same
  | .atom starts cs =>
      have same := Reads.atom starts (cs ++ more)
      rwa [← List.cons_append, Token.atomPart_append_of_lt stops] at same
  | .list items => exact .list (items.append more)

/-- Items and the parenthesis that closes their list are read in the same way if text is added. -/
theorem ReadsItems.append {cs : List Char} {vs : List Value} {n : Nat} (items : ReadsItems cs vs n)
    (more : List Char) : ReadsItems (cs ++ more) vs n := by
  match items with
  | .close marks cs =>
      rw [List.append_assoc]
      exact .close marks (cs ++ more)
  | .cons (n := n) first rest =>
      have inside : n < cs.length := by
        have width := rest.width_le
        rw [List.length_drop] at width
        omega
      have others := rest.append more
      rw [← List.drop_append_of_le_length (by omega)] at others
      exact .cons (first.append inside more) others

end

/-! ## Where a reader stops -/

namespace Reader

/-- Marks before a closing parenthesis are passed over, and the parenthesis is not. -/
theorem next_of_close {reader : Reader} {front rest : List Char} (marks : AreMarks front)
    (text : reader.source.toList.drop reader.pos = front ++ ')' :: rest) :
    reader.next = (.ok ((Value.sym "").quotedTimes (front.count '\'')),
      { reader with pos := reader.pos + front.length }) := by
  unfold next lexemes ReadState.start
  rw [text, ReadState.run_marks marks, ReadState.run_stray, Nat.zero_add]

/-- With only marks before it, the reader comes to the end. -/
theorem next_of_marks {reader : Reader} (marks : AreMarks (reader.source.toList.drop reader.pos)) :
    reader.next.2.pos = reader.endPos := by
  unfold next
  generalize reader.endPos = last
  unfold lexemes ReadState.start
  rw [← List.append_nil (reader.source.toList.drop reader.pos), ReadState.run_marks marks,
    ReadState.run_end]

theorem length_le_endPos (reader : Reader) : reader.source.length ≤ reader.endPos := by
  have grows : ∀ (lexemes : List Lexeme) (pos : Nat),
      pos ≤ lexemes.foldl (fun pos lexeme => max pos lexeme.stop) pos := by
    intro lexemes
    induction lexemes with
    | nil => exact Nat.le_refl
    | cons lexeme rest ih => exact fun pos => Nat.le_trans (Nat.le_max_left _ _) (ih _)
  exact Nat.le_trans (Nat.le_max_right _ _) (grows _ _)

/-- The reader has come to a closing parenthesis and has read no token. -/
def Stalled (source : String) (start stop : Nat) : Prop :=
  AreMarks ((source.toList.take stop).drop start) ∧ source.toList[stop]? = some ')'

/-- Where a reader has stopped: behind an expression, in front of a closing parenthesis with only marks
before it, or at the end of the text. -/
theorem next_cases {source : String} {start stop : Nat} {v : Value}
    (next : (Reader.mk source start).next = (.ok v, ⟨source, stop⟩)) :
    (∃ n, Reads (source.toList.drop start) v n ∧ stop = start + n) ∨
      (∃ front rest, AreMarks front ∧ source.toList.drop start = front ++ ')' :: rest ∧
        v = (Value.sym "").quotedTimes (front.count '\'') ∧ stop = start + front.length) ∨
      source.length ≤ stop := by
  rcases reads_of_next next with ⟨n, reads, after⟩ | ⟨front, rest, marks, text, stops⟩
  · exact .inl ⟨n, reads, congrArg Reader.pos after⟩
  · right
    rcases stops with ⟨rfl, -⟩ | ⟨⟨rest, rfl⟩, value⟩
    · right
      rw [List.append_nil] at text
      have stops := next_of_marks (text ▸ marks)
      rw [next] at stops
      exact Nat.le_trans (length_le_endPos ⟨source, start⟩) (Nat.le_of_eq stops.symm)
    · left
      have close := next_of_close marks text
      rw [next] at close
      exact ⟨front, rest, marks, text, value, congrArg Reader.pos (Prod.mk.inj close).2⟩

/-- A reader that stops before the end reads the same if text is added. -/
theorem next_append {source : String} {start stop : Nat} {v : Value}
    (next : (Reader.mk source start).next = (.ok v, ⟨source, stop⟩)) (before : stop < source.length)
    (more : String) : (Reader.mk (source ++ more) start).next = (.ok v, ⟨source ++ more, stop⟩) := by
  have longer : ∀ {n}, stop = start + n →
      (source ++ more).toList.drop start = source.toList.drop start ++ more.toList := by
    intro n stops
    rw [← String.length_toList] at before
    rw [String.toList_append, List.drop_append_of_le_length (by omega)]
  rcases next_cases next with ⟨n, reads, rfl⟩ | ⟨front, rest, marks, text, rfl, rfl⟩ | ended
  · have inside : n < (source.toList.drop start).length := by
      rw [List.length_drop, String.length_toList]
      omega
    have reads := reads.append inside more.toList
    rw [← longer rfl] at reads
    exact next_of_reads reads
  · have text : (source ++ more).toList.drop start = front ++ ')' :: (rest ++ more.toList) := by
      rw [longer rfl, text, List.append_assoc, List.cons_append]
    exact next_of_close marks text
  · omega

/-- An expression that ends within the text is read the same if the text is cut off behind it. -/
theorem next_take {source : String} {start stop : Nat} {v : Value}
    (next : (Reader.mk source start).next = (.ok v, ⟨source, stop⟩)) (within : stop ≤ source.length)
    (read : (∀ quotes, v ≠ (Value.sym "").quotedTimes quotes) ∨ ¬ Stalled source start stop) :
    (Reader.mk (String.ofList (source.toList.take stop)) start).next =
      (.ok v, ⟨String.ofList (source.toList.take stop), stop⟩) := by
  rcases next_cases next with ⟨n, reads, rfl⟩ | ⟨front, rest, marks, text, value, rfl⟩ | ended
  · have inside : n ≤ (source.toList.drop start).length := by
      have width := reads.width_pos
      rw [List.length_drop, String.length_toList]
      omega
    have own := LastExpression.reads_take reads inside (Nat.le_refl n)
    refine next_of_reads ?_
    rwa [String.toList_ofList, List.drop_take, Nat.add_sub_cancel_left]
  · rcases read with other | moved
    · exact absurd value (other _)
    · refine absurd ⟨?_, ?_⟩ moved
      · rwa [List.drop_take, Nat.add_sub_cancel_left, text, List.take_left]
      · rw [← List.getElem?_drop, text, List.getElem?_append_right (Nat.le_refl _), Nat.sub_self]
        rfl
  · -- The reader has come to the end, so nothing is cut off.
    have all : source.toList.take stop = source.toList :=
      List.take_of_length_le (by rwa [String.length_toList])
    rw [all, String.ofList_toList]
    exact next

/-- **Reading depends only on the text that is read.**  Say that a reader reads `v` and stops at a
place.  If that is before the end of the text then the reader does the same with any text added
behind.  If it is within the text then the reader does the same on the text up to that place, unless
it has stopped in front of a closing parenthesis and read no token, in which case `v` is the symbol
with the empty name under quote marks. -/
theorem next_local {source : String} {start stop : Nat} {v : Value}
    (next : (Reader.mk source start).next = (.ok v, ⟨source, stop⟩)) :
    (stop < source.length → ∀ more : String,
      (Reader.mk (source ++ more) start).next = (.ok v, ⟨source ++ more, stop⟩)) ∧
    (stop ≤ source.length →
      (∀ quotes, v ≠ (Value.sym "").quotedTimes quotes) ∨ ¬ Stalled source start stop →
        (Reader.mk (String.ofList (source.toList.take stop)) start).next =
          (.ok v, ⟨String.ofList (source.toList.take stop), stop⟩)) :=
  ⟨next_append next, next_take next⟩

/-- A list with quote marks before its closing parenthesis, read from inside a text: neither a text
behind it nor its absence makes a difference. -/
theorem next_local_dangling :
    let v : Value := .list [.str "b\"", .sym "c", (Value.sym "").quoted]
    (Reader.mk "a (\"b\\\"\" c ')d" 1).next = (.ok v, ⟨"a (\"b\\\"\" c ')d", 13⟩) ∧
      (Reader.mk "a (\"b\\\"\" c ')d) e" 1).next = (.ok v, ⟨"a (\"b\\\"\" c ')d) e", 13⟩) ∧
      (Reader.mk "a (\"b\\\"\" c ')" 1).next = (.ok v, ⟨"a (\"b\\\"\" c ')", 13⟩) := by
  intro v
  have next : (Reader.mk "a (\"b\\\"\" c ')d" 1).next =
      (.ok v, ⟨"a (\"b\\\"\" c ')d", 13⟩) := rfl
  obtain ⟨added, cut⟩ := next_local next
  refine ⟨next, added (by decide) ") e", cut (by decide) (.inr ?_)⟩
  rintro ⟨-, close⟩
  exact absurd close (by decide)

end Reader

end BufferLisp
