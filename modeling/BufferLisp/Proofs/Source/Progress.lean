import BufferLisp.Proofs.Source.Descent

/-!
# Reading a text to its end

A reader is called again and again on one text, and goes on after an error from where that has left
it (`Reader.after`).  Each call ends, and it moves the reader forward unless that stands at the end
of the text or right at a closing parenthesis; there it stays for good.  So as many calls as the
text has characters bring the reader to one of these places (`Reader.after_progresses`).

The reader is past the end of its text only if the text ends in a string that is cut off.  As each
call passes over whole pieces, all of them together do too, and by how much the reader is past the
end is a matter of the last piece of the text alone.
-/

set_option autoImplicit false

namespace BufferLisp

namespace Reader

/-- The reader after a number of calls, whether they have failed or not. -/
def after (reader : Reader) : (calls : Nat) → Reader
  | 0 => reader
  | calls + 1 => (reader.after calls).next.2

/-- The reader is at the end of its text, or right at a closing parenthesis. -/
def AtRest (reader : Reader) : Prop :=
  reader.source.length ≤ reader.pos ∨ reader.source.toList[reader.pos]? = some ')'

/-! ## One call -/

theorem source_next (reader : Reader) : reader.next.2.source = reader.source := by
  obtain ⟨result, n, -, next⟩ := reader.exists_yields
  rw [next]

/-- At the end of the text every call reads `nil`. -/
theorem next_of_end {reader : Reader} (ended : reader.source.length ≤ reader.pos) :
    reader.next = (.ok .nil, reader) := by
  have none : reader.source.toList.drop reader.pos = [] :=
    List.drop_of_length_le (by rwa [String.length_toList])
  have yields := @Yields.ended [] areMarks_nil
  rw [← none] at yields
  rw [next_of_yields yields, none]
  rfl

/-- At a closing parenthesis every call reads the symbol with the empty name. -/
theorem next_of_stray {reader : Reader} (close : reader.source.toList[reader.pos]? = some ')') :
    reader.next = (.ok (.sym ""), reader) := by
  obtain ⟨inside, here⟩ := List.getElem?_eq_some_iff.mp close
  have yields := @Yields.stray [] areMarks_nil (reader.source.toList.drop (reader.pos + 1))
  rw [List.nil_append, ← here, ← List.drop_eq_getElem_cons inside] at yields
  exact next_of_yields yields

theorem AtRest.next {reader : Reader} (rest : reader.AtRest) : reader.next.2 = reader := by
  rcases rest with ended | close
  · rw [next_of_end ended]
  · rw [next_of_stray close]

/-- **A call moves the reader forward exactly if it is not at rest.** -/
theorem pos_lt_next_iff (reader : Reader) : reader.pos < reader.next.2.pos ↔ ¬ reader.AtRest := by
  constructor
  · intro moves rest
    rw [rest.next] at moves
    exact Nat.lt_irrefl _ moves
  · intro moving
    obtain ⟨before, notClose⟩ := not_or.mp moving
    have inside : reader.pos < reader.source.toList.length := by
      rw [String.length_toList]
      exact Nat.not_le.mp before
    obtain ⟨result, n, yields, next⟩ := reader.exists_yields
    rw [List.drop_eq_getElem_cons inside] at yields
    rw [List.getElem?_eq_getElem inside] at notClose
    have advances := yields.advances fun same => notClose (congrArg some same)
    rw [next]
    exact Nat.lt_add_of_pos_right advances

/-- A call that fails leaves nothing of the text. -/
theorem length_le_of_error {reader : Reader} {cause : LispError}
    (error : reader.next.1 = .error cause) : reader.source.length ≤ reader.next.2.pos := by
  obtain ⟨result, n, yields, next⟩ := reader.exists_yields
  rw [next] at error ⊢
  obtain rfl : result = .error cause := error
  have taken := yields.length_le
  rw [List.length_drop, String.length_toList] at taken
  exact Nat.sub_le_iff_le_add'.mp taken

/-! ## Many calls -/

theorem source_after (reader : Reader) (calls : Nat) :
    (reader.after calls).source = reader.source := by
  induction calls with
  | zero => rfl
  | succ calls ih => rw [after, source_next, ih]

/-- A reader at rest stays where it is. -/
theorem AtRest.after {reader : Reader} (rest : reader.AtRest) (calls : Nat) :
    reader.after calls = reader := by
  induction calls with
  | zero => rfl
  | succ calls ih => rw [Reader.after, ih, rest.next]

/-- Each call takes the reader at least one character further, until it is at rest. -/
theorem le_pos_or_atRest (reader : Reader) (calls : Nat) :
    calls ≤ (reader.after calls).pos ∨ (reader.after calls).AtRest := by
  induction calls with
  | zero => exact .inl (Nat.zero_le _)
  | succ calls ih =>
      by_cases rest : (reader.after calls).AtRest
      · right
        rw [after, rest.next]
        exact rest
      · left
        have moved := (pos_lt_next_iff _).mpr rest
        exact Nat.lt_of_le_of_lt (ih.resolve_right rest) moved

/-- **All calls together pass over whole pieces of the text.** -/
theorem passes_after (source : String) (calls : Nat) :
    Passes source.toList ((ofSource source).after calls).pos := by
  induction calls with
  | zero => exact .none _
  | succ calls ih =>
      obtain ⟨result, n, yields, next⟩ := ((ofSource source).after calls).exists_yields
      rw [source_after] at yields
      rw [after, next]
      exact ih.trans yields.passes

/-! ## Progress -/

/-- What the next call does to a reader of a text, and where the reader stands before it. -/
structure Progresses (source : String) (reader : Reader) : Prop where
  /-- The call ends: recursive descent comes to its result within two steps for each character of
  the text and one more.  The reader moves over what that takes up, and never back. -/
  ends : ∃ n, reader.next.2 = ⟨source, reader.pos + n⟩ ∧ ∀ steps, 2 * source.length + 1 ≤ steps →
    descend steps (source.toList.drop reader.pos) = some (reader.next.1, n)
  moves : reader.pos < reader.next.2.pos ↔ ¬ reader.AtRest
  fails : ∀ cause, reader.next.1 = .error cause → source.length ≤ reader.next.2.pos
  /-- A reader that has come to the end of the text stands right there, or the text ends in a string
  that is cut off.  Then the reader is one character past the end, and two if the last character is
  a backslash that is not itself skipped. -/
  bounds : source.length ≤ reader.pos →
    reader.pos = source.length ∧ (∀ body, ¬ EndsCutOff source.toList body) ∨
      ∃ body, EndsCutOff source.toList body ∧
        reader.pos = source.length + 1 + Token.endBackslashes body % 2

/-- The reader is at the end of its text, or stuck at a closing parenthesis, where every further
call reads the symbol with the empty name. -/
def Settled (reader : Reader) : Prop :=
  reader.source.length ≤ reader.pos ∧ (∀ more, (reader.after more).next = (.ok .nil, reader)) ∨
    reader.source.toList[reader.pos]? = some ')' ∧
      ∀ more, (reader.after more).next = (.ok (.sym ""), reader)

theorem AtRest.settled {reader : Reader} (rest : reader.AtRest) : reader.Settled := by
  have still : ∀ more, (reader.after more).next = reader.next := by
    intro more
    rw [rest.after]
  rcases rest with ended | close
  · exact .inl ⟨ended, fun more => (still more).trans (next_of_end ended)⟩
  · exact .inr ⟨close, fun more => (still more).trans (next_of_stray close)⟩

theorem progresses_after (source : String) (calls : Nat) :
    Progresses source ((ofSource source).after calls) := by
  have text : ((ofSource source).after calls).source = source := source_after _ calls
  have whole := passes_after source calls
  generalize (ofSource source).after calls = reader at text whole ⊢
  have left : (source.toList.drop reader.pos).length ≤ source.length := by
    rw [List.length_drop, String.length_toList]
    exact Nat.sub_le _ _
  constructor
  case ends =>
    obtain ⟨n, moved, answers⟩ := reader.next_eq_descend
    rw [text] at moved answers
    exact ⟨n, moved, fun steps enough => answers steps (by omega)⟩
  case moves => exact reader.pos_lt_next_iff
  case fails =>
    intro cause error
    rw [← text]
    exact length_le_of_error error
  case bounds =>
    intro all
    rw [whole.eq_reach (by rwa [String.length_toList]), ← String.length_toList]
    exact reach_cases source.toList

/-- **Reading always makes progress and stays in bounds.**  However often a reader has been called
from the start of a text on, the next call ends, moves the reader forward exactly if that is not at
rest, leaves nothing of the text if it fails, and goes past the end of the text only over a string
that is cut off.  And after as many calls as the text has characters the reader is at the end, or
stuck at a closing parenthesis. -/
theorem after_progresses (source : String) (calls : Nat) :
    Progresses source ((ofSource source).after calls) ∧
      (source.length ≤ calls → Settled ((ofSource source).after calls)) := by
  refine ⟨progresses_after source calls, fun enough => AtRest.settled ?_⟩
  rcases le_pos_or_atRest (ofSource source) calls with far | rest
  · left
    rw [source_after]
    exact Nat.le_trans enough far
  · exact rest

/-- A list with a string in it that ends with a backslash leaves the reader two characters past the
end; a quote mark before a closing parenthesis leaves it at the parenthesis. -/
theorem after_progresses_stuck :
    Progresses "a (\"b\\" ⟨"a (\"b\\", 8⟩ ∧ Settled ⟨"a ')", 3⟩ := by
  have past : (ofSource "a (\"b\\").after 2 = ⟨"a (\"b\\", 8⟩ := rfl
  have stuck : (ofSource "a ')").after 4 = ⟨"a ')", 3⟩ := rfl
  rw [← past, ← stuck]
  exact ⟨(after_progresses _ 2).1, (after_progresses "a ')" 4).2 (by decide)⟩

end Reader

end BufferLisp
