import BufferLisp.Editor.Command
import BufferLisp.Proofs.Source.LastExpression

/-!
# Evaluating the expression before the cursor

If a reader reads an expression somewhere in a buffer, and the cursor stands behind it with nothing
but blanks between, then the command that evaluates the expression before the cursor does what
evaluating the text of that expression does (`Editor.evalLast_eq_evalExpression`).
-/

set_option autoImplicit false

namespace BufferLisp

open LastExpression

/-- A reader at a character that starts an expression of one of the three kinds follows the
grammar. -/
theorem Reader.reads_of_recoverable {text : String} {i e : Nat} {v : Value} {first : Char}
    {cs before span : List Char} (starts : text.toList.drop i = first :: cs)
    (solid : Text.isBlank first = false)
    (next : (Reader.mk text i).next = (.ok v, ⟨text, e⟩))
    (recoverable : Recoverable before first span v) :
    ∃ n, Reads (first :: cs) v n ∧ e = i + n := by
  have mark : first ≠ '\'' ∧ first ≠ ')' := by
    cases recoverable with
    | list opens _ => subst opens; decide
    | literal quote _ => subst quote; decide
    | atom notParen notQuote _ _ => exact ⟨notQuote.2, notParen.2⟩
  rcases Reader.reads_of_next next with ⟨n, reads, after⟩ | ⟨front, rest, marks, split, stop⟩
  · refine ⟨n, starts ▸ reads, congrArg Reader.pos after⟩
  · -- The character is no mark, and it does not close a list.
    rw [show (Reader.mk text i).source.toList.drop (Reader.mk text i).pos = first :: cs from starts]
      at split
    cases front with
    | nil =>
        rcases stop with ⟨rfl, -⟩ | ⟨⟨after, rfl⟩, -⟩
        · nomatch split
        · exact absurd (List.cons.inj split).1 mark.2
    | cons c front =>
        obtain ⟨rfl, -⟩ := List.cons.inj split
        rcases marks first List.mem_cons_self with blank | quote
        · rw [solid] at blank
          nomatch blank
        · exact absurd quote mark.1

/-- The command does what evaluating the text that it finds does. -/
theorem Editor.runOn_evalLast {editor : Editor} {buffer : Buffer} {span : List Char}
    (active : editor.host.activeBuffer? = some buffer) (nonempty : span ≠ [])
    (found : lastExpression? buffer.content buffer.cursor = some (String.ofList span))
    (limit : Nat) :
    (Editor.evalLast limit).runOn editor =
      ((fun _ => ()) <$> Editor.evalExpression limit (String.ofList span)).runOn editor := by
  have some : (String.ofList span).isEmpty = false := by
    simpa [String.isEmpty_eq_false_iff] using nonempty
  rw [Editor.evalLast, EditorM.runOn_bind, EditorM.runOn_activeBuffer, active]
  dsimp only
  rw [Session.evalLast, found]
  dsimp only
  rw [some]
  rfl

/-- **The expression that was read is the one before the cursor.**  Say that a reader at index `i`
reads `v` and stops at `e`, and that only blanks stand between `e` and the cursor.  If the expression
can be found again then it is what the search from the cursor finds, its text is read as `v`, and the
command that evaluates the expression before the cursor leaves the same editor, and fails in the same
way, as evaluating that text. -/
theorem Editor.evalLast_eq_evalExpression {text : String} {i e : Nat} {v : Value} {first : Char}
    {cursor : Int} (starts : text.toList[i]? = some first) (solid : Text.isBlank first = false)
    (next : (Reader.mk text i).next = (.ok v, ⟨text, e⟩)) (within : e ≤ text.length)
    (behind : e ≤ cursor)
    (blank : ∀ c ∈ (text.toList.take cursor.toNat).drop e, Text.isBlank c = true)
    (recoverable : Recoverable (text.toList.take i) first ((text.toList.take e).drop i) v) :
    lastExpression? text cursor = some (String.ofList ((text.toList.take e).drop i)) ∧
      read (String.ofList ((text.toList.take e).drop i)) = .ok v ∧
      ∀ (limit : Nat) (editor : Editor) (buffer : Buffer),
        editor.host.activeBuffer? = some buffer → buffer.content = text → buffer.cursor = cursor →
          (Editor.evalLast limit).runOn editor =
            ((fun _ => ()) <$> Editor.evalExpression limit
              (String.ofList ((text.toList.take e).drop i))).runOn editor := by
  obtain ⟨inside, here⟩ := List.getElem?_eq_some_iff.mp starts
  have tail : text.toList.drop i = first :: text.toList.drop (i + 1) := by
    rw [← here]
    exact List.drop_eq_getElem_cons inside
  obtain ⟨n, reads, rfl⟩ := Reader.reads_of_recoverable tail solid next recoverable
  have span : (text.toList.take (i + n)).drop i = (first :: text.toList.drop (i + 1)).take n := by
    rw [← tail, List.drop_take, Nat.add_sub_cancel_left]
  have room : n ≤ (first :: text.toList.drop (i + 1)).length := by
    rw [← tail, List.length_drop, String.length_toList]
    omega
  rw [span] at recoverable
  have found := found_of_reads solid reads room recoverable
  have last : lastExpression? text cursor =
      some (String.ofList ((text.toList.take (i + n)).drop i)) := by
    have split := @take_split text.toList i (i + n) cursor.toNat (by omega) (by omega)
    rw [span] at split ⊢
    exact found.lastExpression? blank split
  refine ⟨last, span ▸ read_take reads room, ?_⟩
  rintro limit editor buffer active rfl rfl
  exact Editor.runOn_evalLast active (span ▸ found.ne_nil) last limit

/-- A list behind a quote mark, with an escaped quote in it and a blank behind it: its own text is
found and evaluated. -/
theorem Editor.evalLast_eq_evalExpression_escaped :
    (Reader.mk "'(\"a\\\"\") " 1).next = (.ok (.list [.str "a\""]), ⟨"'(\"a\\\"\") ", 8⟩) ∧
      lastExpression? "'(\"a\\\"\") " 9 = some "(\"a\\\"\")" ∧
      read "(\"a\\\"\")" = .ok (.list [.str "a\""]) ∧
      (Editor.evalLast 10).runOn
          ⟨Chain.global, (Workspace.fresh "'(\"a\\\"\") ").modifyActive (·.moveTo 9)⟩ =
        ((fun _ => ()) <$> Editor.evalExpression 10 "(\"a\\\"\")").runOn
          ⟨Chain.global, (Workspace.fresh "'(\"a\\\"\") ").modifyActive (·.moveTo 9)⟩ := by
  have next : (Reader.mk "'(\"a\\\"\") " 1).next =
      (.ok (.list [.str "a\""]), ⟨"'(\"a\\\"\") ", 8⟩) := rfl
  have plain : (Value.list [.str "a\""]).StringsPlain :=
    ⟨⟨by decide, by decide⟩, trivial⟩
  have recovered := Editor.evalLast_eq_evalExpression (i := 1) (e := 8) rfl (by decide) next
    (by decide) (show ((8 : Nat) : Int) ≤ 9 by decide) (List.all_eq_true.mp (by decide))
    (.list rfl plain)
  exact ⟨next, recovered.1, recovered.2.1, recovered.2.2 10 _ _ rfl rfl rfl⟩

end BufferLisp
