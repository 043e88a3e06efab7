import BufferLisp.Proofs.Source.Escapes
import BufferLisp.Proofs.Value.Occurrence
import BufferLisp.Proofs.Value.RoundTrip

/-!
# What can be read

Far from every value comes from a text.  Whatever a reader reads, and from wherever it stands, each
part of the value is of a kind that can be written (`Reader.next_written`): it is not false, no
function, no primitive and no NaN, a string in it has no escape left for a line break, and a symbol
has the name of an atom that is neither a constant nor a numeral.

The one exception is the symbol with the empty name, which is read where a closing parenthesis
stands in place of an expression.  In a list the parenthesis closes the list instead.  So the empty
name comes up only behind a quote mark, and is then the second of two elements behind `quote`, or it
is all that was read.
-/

set_option autoImplicit false

namespace BufferLisp

/-! ## Parts -/

namespace Value

/-- What a part of a value is like that was read from a text.  Of a list it says in which one an
element is the symbol with the empty name: only in the one that a quote mark makes. -/
def Written : Value → Prop
  | nil => True
  | bool b => b = true
  | num x => Number.isNaN x = false
  | nan _ => False
  | str s => ¬ ['\\', 'n'] <:+: s.toList
  | sym name => name ≠ "" → ReadableName name.toList
  | list items => sym "" ∈ items → items = [sym "quote", sym ""]
  | fn _ _ => False
  | prim _ => False

/-- All parts of the value are as they are read from a text. -/
def AllWritten (v : Value) : Prop :=
  ∀ part, Occurs part v → part.Written

theorem allWritten_atom {v : Value} (notList : ∀ items, v ≠ list items) (written : v.Written) :
    v.AllWritten := by
  intro part occurs
  rw [(occurs_atom_iff notList).mp occurs]
  exact written

theorem allWritten_list {items : List Value} (written : (list items).Written)
    (elements : ∀ v ∈ items, v.AllWritten) : (list items).AllWritten := by
  intro part occurs
  rcases occurs_list_iff.mp occurs with rfl | ⟨v, member, inside⟩
  · exact written
  · exact elements v member part inside

theorem allWritten_empty : (sym "").AllWritten :=
  allWritten_atom (fun _ same => nomatch same) fun named => absurd rfl named

/-- A quote mark in front of the symbol with the empty name makes the one list that it may stand in.
-/
theorem AllWritten.quoted {v : Value} (all : v.AllWritten) : v.quoted.AllWritten := by
  have word : IsWord "quote".toList := by decide
  have name : ReadableName "quote".toList := { word with notTrue := by decide, notNil := by decide }
  apply allWritten_list
  · intro member
    rcases List.mem_pair.mp member with first | second
    · exact absurd (sym.inj first) (by decide)
    · rw [← second]
  · intro element member
    rcases List.mem_pair.mp member with rfl | rfl
    · exact allWritten_atom (fun _ same => nomatch same) fun _ => name
    · exact all

theorem AllWritten.quotedTimes {v : Value} (all : v.AllWritten) (quotes : Nat) :
    (v.quotedTimes quotes).AllWritten := by
  induction quotes with
  | zero => exact all
  | succ quotes ih => exact ih.quoted

end Value

/-! ## Literals and atoms -/

/-- The number of a numeral may be infinite, and it is a number. -/
theorem Number.isNaN_ofChars? {cs : List Char} {x : Float} (numeral : ofChars? cs = some x) :
    isNaN x = false := by
  obtain ⟨parts, -, rfl⟩ := Option.map_eq_some_iff.mp numeral
  have number : ∀ num den, nearestRank num den ≤ infinityRank :=
    fun num den => Nat.min_le_right _ _
  have bounded : nearestRankDecimal (ofDigitChars (parts.whole ++ parts.fraction))
      (-parts.fraction.length) ≤ infinityRank := by
    unfold nearestRankDecimal
    split
    · apply number
    · apply number
  rw [isNaN, Numeral.toFloat, rank_ofRank _ bounded]
  exact decide_eq_false (Nat.not_lt.mpr bounded)

/-- Decoding leaves no escape for a line break. -/
theorem Token.written_literalText (raw : List Char) : (Value.str (literalText raw)).Written := by
  rw [Value.Written, toList_literalText]
  exact absent_replacePair (by decide) (by decide) (by decide) _

namespace Value

theorem written_atomValue {c : Char} (starts : StartsAtom c) (cs : List Char) :
    (Token.atomValue (Token.atomPart (c :: cs))).AllWritten := by
  have read := isRead_atomValue starts cs
  have number := @Number.isNaN_ofChars? (Token.atomPart (c :: cs))
  revert read
  unfold Token.atomValue
  split
  · exact fun _ => allWritten_atom nofun rfl
  · split
    · exact fun _ => allWritten_atom nofun trivial
    · split
      · next x numeral => exact fun _ => allWritten_atom nofun (number numeral)
      · exact fun readable => allWritten_atom nofun fun _ => readable

end Value

/-! ## What is read -/

/-- An expression that takes up some of the text is not the symbol with the empty name. -/
theorem Reads.ne_empty {cs : List Char} {v : Value} {n : Nat} (reads : Reads cs v n) :
    v ≠ .sym "" := by
  rintro rfl
  exact reads.isRead.nonempty rfl

mutual

/-- **All parts of an expression are as they are written.** -/
theorem Reads.allWritten {cs : List Char} {v : Value} {n : Nat} (reads : Reads cs v n) :
    v.AllWritten :=
  match reads with
  | .blank _ reads => reads.allWritten
  | .quote reads => reads.allWritten.quoted
  | .literal _ => Value.allWritten_atom nofun (Token.written_literalText _)
  | .atom starts cs => Value.written_atomValue starts cs
  | .list items =>
      Value.allWritten_list (fun member => absurd rfl (items.allWritten _ member).2)
        fun v member => (items.allWritten v member).1

/-- The items of a list are as they are written, and none of them is the symbol with the empty name.
-/
theorem ReadsItems.allWritten {cs : List Char} {vs : List Value} {n : Nat}
    (items : ReadsItems cs vs n) : ∀ v ∈ vs, v.AllWritten ∧ v ≠ .sym "" :=
  match items with
  | @ReadsItems.close front _ _ => by
      cases front.count '\'' with
      | zero => simp [dangling]
      | succ quotes =>
          intro v member
          rw [List.mem_singleton.mp member]
          exact ⟨Value.allWritten_empty.quotedTimes (quotes + 1), fun same => nomatch same⟩
  | .cons first rest =>
      List.forall_mem_cons.mpr ⟨⟨first.allWritten, first.ne_empty⟩, rest.allWritten⟩

end

/-- **The shape of what is read.**  Wherever a reader stands in a text, each part of the value that
it reads is `Written`.  In particular the symbol with the empty name is the whole value or the
second of two elements behind `quote`. -/
theorem Reader.next_written {source : String} {pos : Nat} {v : Value} {after : Reader}
    (next : (Reader.mk source pos).next = (.ok v, after)) :
    ∀ part, Value.Occurs part v → part.Written := by
  rcases reads_of_next next with ⟨n, reads, -⟩ | ⟨front, rest, -, -, stops⟩
  · exact reads.allWritten
  · rcases stops with ⟨-, rfl⟩ | ⟨-, rfl⟩
    · have atom : Value.nil.AllWritten :=
        Value.allWritten_atom (fun _ same => nomatch same) trivial
      exact atom.quotedTimes _
    · exact Value.allWritten_empty.quotedTimes _

/-- A string with an escaped quote and a pair of backslashes before an `n`, a numeral, and a quote
mark before the closing parenthesis: the last backslash makes a line break, and nothing else has the
empty name. -/
theorem Reader.next_written_escaped :
    let v : Value := .list [.str "\"\\\n", .num (Number.Numeral.toFloat ⟨true, ['1'], ['5']⟩),
      (Value.sym "").quoted]
    (Reader.mk "x (\"\\\"\\\\n\" -1.5 ')" 1).next = (.ok v, ⟨"x (\"\\\"\\\\n\" -1.5 ')", 18⟩) ∧
      ∀ part, Value.Occurs part v → part.Written := by
  intro v
  have next : (Reader.mk "x (\"\\\"\\\\n\" -1.5 ')" 1).next =
      (.ok v, ⟨"x (\"\\\"\\\\n\" -1.5 ')", 18⟩) := rfl
  exact ⟨next, next_written next⟩

end BufferLisp
