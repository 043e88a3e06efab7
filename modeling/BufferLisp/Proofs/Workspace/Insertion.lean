import BufferLisp.Proofs.Eval.Requests
import BufferLisp.Proofs.Workspace.Active
import BufferLisp.Proofs.Workspace.WellFormed

/-!
# Insertions one after the other

A program that inserts texts one after the other leaves the buffer as if it had inserted all of them
at once (`eval_inserts_eq_insert`).  Each insertion puts its text where the one before it has left
the cursor, right behind the text before; so the texts come to stand side by side.

A call of `insert` on quoted values sends one request, and a sequence of such calls sends these
requests in order (`runOn_eval_inserts`), on any host.  On a workspace two insertions are one as long
as the cursor lies within the text: a cursor beyond the text would count as its end for the first of
them, but not for the second.
-/

set_option autoImplicit false

namespace BufferLisp

/-! ## Texts -/

namespace Text

variable {s : String} {offset : Int}

/-- What an insertion makes of a text, at an offset within it. -/
theorem insertAt_eq (low : 0 ≤ offset) (high : offset ≤ s.length) (inserted : String) :
    insertAt s offset inserted = String.ofList
      (s.toList.take offset.toNat ++ inserted.toList ++ s.toList.drop offset.toNat) := by
  have here : index s.toList.length offset = offset.toNat := by
    rw [String.length_toList, index, if_neg (by omega)]
    omega
  rw [insertAt, before, after, here]

/-- A text inserted right behind another is inserted together with it. -/
theorem insertAt_insertAt (low : 0 ≤ offset) (high : offset ≤ s.length) (first second : String) :
    insertAt (insertAt s offset first) (offset + first.length) second =
      insertAt s offset (first ++ second) := by
  have within : offset + first.length ≤ (insertAt s offset first).length := by
    rw [length_insertAt]
    omega
  have behind : (offset + first.length).toNat =
      (s.toList.take offset.toNat ++ first.toList).length := by
    rw [List.length_append, List.length_take, String.length_toList, String.length_toList]
    omega
  rw [insertAt_eq (by omega) within, insertAt_eq low high, String.toList_ofList, behind,
    List.take_left, List.drop_left, insertAt_eq low high, String.toList_append,
    List.append_assoc (s.toList.take _)]

end Text

/-- **Two insertions in a row are one.** -/
theorem Buffer.insert_insert {buffer : Buffer} (inText : buffer.CursorInText)
    (first second : String) :
    (buffer.insert first).insert second = buffer.insert (first ++ second) := by
  have cursors : buffer.cursor + first.length + second.length =
      buffer.cursor + (first ++ second).length := by
    rw [String.length_append]
    omega
  simp only [insert, Text.insertAt_insertAt inText.1 inText.2, cursors]

/-! ## Requests -/

namespace Workspace

/-- **Texts inserted one after the other are inserted at once.** -/
theorem handleAll_insert {workspace : Workspace} {buffer : Buffer}
    (active : workspace.activeBuffer? = some buffer) (inText : buffer.CursorInText)
    {texts : List String} (some : texts ≠ []) :
    Host.handleAll workspace (texts.map .insert) =
      workspace.modifyActive (·.insert (String.join texts)) := by
  induction texts generalizing workspace buffer with
  | nil => exact absurd rfl some
  | cons text rest ih =>
      change Host.handleAll (workspace.modifyActive (·.insert text)) (rest.map .insert) = _
      rw [String.join_cons]
      cases rest with
      | nil => rw [String.join_nil, String.append_empty]; rfl
      | cons next rest =>
          -- The rest is inserted into a buffer whose cursor is behind the first text.
          have stays : (workspace.modifyActive (·.insert text)).activeBuffer? =
              .some (buffer.insert text) := activeBuffer?_of_modifyActive active rfl
          rw [ih stays ((Buffer.insert_proper text buffer).2 inText) (List.cons_ne_nil _ _),
            modifyActive_modifyActive active rfl]
          exact modifyActive_congr active (Buffer.insert_insert inText text _)

end Workspace

/-! ## Programs -/

/-- A call of `insert` on quoted values. -/
def insertCall (values : List Value) : Value :=
  .list (.sym Primitive.insert.name :: values.map Value.quoted)

/-- The text that `insert` makes of its arguments. -/
def insertedText (values : List Value) : String :=
  String.join (values.map Value.text)

theorem insertedText_flatten (groups : List (List Value)) :
    insertedText groups.flatten = String.join (groups.map insertedText) := by
  induction groups with
  | nil => rfl
  | cons group rest ih =>
      rw [List.flatten_cons, insertedText, List.map_append, String.join_append, List.map_cons,
        String.join_cons, ← ih]
      rfl

section Programs

variable {σ : Type} [Host σ]

/-- A quoted value evaluates to itself and does nothing. -/
theorem evalAll_quoted (limit : Nat) (values : List Value) :
    evalAll (eval (limit + 1)) (values.map Value.quoted) = (pure values : EvalM σ (List Value)) := by
  induction values with
  | nil => rfl
  | cons v rest ih =>
      have first : (eval (limit + 1) v.quoted : EvalM σ Value) = pure v := rfl
      rw [List.map_cons, evalAll, first, ih, pure_bind, pure_bind]

variable {scope : Chain} (bound : scope.lookup? Primitive.insert.name = some (.prim .insert))

include bound

/-- A call of `insert` sends one request. -/
theorem runOn_eval_insertCall (limit : Nat) (host : σ) (values : List Value) :
    (eval (limit + 2) (insertCall values)).runOn ⟨scope, host⟩ =
      (.ok .nil, ⟨scope, (Host.handle (.insert (insertedText values)) host).2⟩) := by
  have found : (eval (limit + 1) (.sym Primitive.insert.name)).runOn ⟨scope, host⟩ =
      (.ok (.prim .insert), ⟨scope, host⟩) := by
    change (EvalM.lookup _).runOn _ = _
    rw [EvalM.runOn_lookup, Chain.lookup, bound]
    rfl
  change (do
    let callee ← eval (limit + 1) (.sym Primitive.insert.name)
    let args ← evalAll (eval (limit + 1)) (values.map Value.quoted)
    applyTo (eval (limit + 1)) (.sym Primitive.insert.name) callee args).runOn ⟨scope, host⟩ = _
  rw [EvalM.runOn_bind, found, evalAll_quoted]
  rfl

/-- Calls of `insert` in a row send their requests in a row. -/
theorem runOn_eval_inserts (limit : Nat) (host : σ) (groups : List (List Value)) :
    (eval (limit + 3) (.list (.sym SpecialForm.progn.name :: groups.map insertCall))).runOn
        ⟨scope, host⟩ =
      (.ok .nil, ⟨scope, Host.handleAll host ((groups.map insertedText).map .insert)⟩) := by
  change (SpecialForm.sequence (eval (limit + 2)) .nil (groups.map insertCall)).runOn _ = _
  induction groups generalizing host with
  | nil => rfl
  | cons group rest ih =>
      rw [List.map_cons, SpecialForm.sequence, EvalM.runOn_bind, runOn_eval_insertCall bound]
      exact ih _

end Programs

/-- **Insertions one after the other are one insertion.**  In a workspace whose active buffer has its
cursor within its text, and in a scope where `insert` is the primitive, let values be inserted by a
sequence of calls, each on a group of them.  The workspace is then as after one call on all the
values.  The text of the values stands at the cursor, the cursor is behind it, the buffer is marked as
modified, and nothing else has changed. -/
theorem eval_inserts_eq_insert (limit : Nat) {scope : Chain}
    (bound : scope.lookup? Primitive.insert.name = some (.prim .insert)) {workspace : Workspace}
    {buffer : Buffer} (active : workspace.activeBuffer? = some buffer)
    (inText : buffer.CursorInText) {groups : List (List Value)} (some : groups ≠ []) :
    let once := (eval (limit + 2) (insertCall groups.flatten)).runOn ⟨scope, workspace⟩
    let text := String.join (groups.flatten.map Value.text)
    (eval (limit + 3) (.list (.sym SpecialForm.progn.name :: groups.map insertCall))).runOn
        ⟨scope, workspace⟩ = once ∧
      ∃ front back, workspace.buffers = front ++ buffer :: back ∧
        (∀ other ∈ front, other.name ≠ workspace.active) ∧
        once = (.ok .nil, ⟨scope, { workspace with
          buffers := front ++ { buffer with
            content := String.ofList (buffer.content.toList.take buffer.cursor.toNat ++
              text.toList ++ buffer.content.toList.drop buffer.cursor.toNat)
            cursor := buffer.cursor + text.length
            modified := true } :: back }⟩) := by
  intro once text
  have inserted : once = (.ok .nil, ⟨scope, workspace.modifyActive (·.insert text)⟩) :=
    runOn_eval_insertCall bound limit workspace groups.flatten
  constructor
  · rw [runOn_eval_inserts bound, inserted,
      Workspace.handleAll_insert active inText (by simpa using some), ← insertedText_flatten]
    rfl
  · obtain ⟨front, back, buffers, named, others⟩ := Workspace.exists_active active
    refine ⟨front, back, buffers, others, ?_⟩
    rw [inserted, Workspace.modifyActive, buffers, Workspace.modifyNamed_append others named,
      Buffer.insert, Text.insertAt_eq inText.1 inText.2]

/-- A string, a number and a symbol are inserted in the middle of a text by two calls. -/
theorem eval_inserts_eq_insert_middle :
    let workspace := (Workspace.fresh "ab").modifyActive (·.moveTo 1)
    let program : Value := .list [.sym "progn",
      .list [.sym "insert", .list [.sym "quote", .str "x"], .list [.sym "quote", .num 2.5]],
      .list [.sym "insert", .list [.sym "quote", .sym "y"]]]
    let after := ((eval 3 program).runOn ⟨Chain.global, workspace⟩).2.host
    after.activeBuffer? =
        some ⟨"*scratch*", "ax2.5yb", 6, "Lisp Interaction", true, false⟩ ∧
      after.buffers.tail = workspace.buffers.tail ∧
      (eval 2 (insertCall [.str "x", .num 2.5, .sym "y"])).runOn ⟨Chain.global, workspace⟩ =
        (eval 3 program).runOn ⟨Chain.global, workspace⟩ := by
  intro workspace program after
  have active : workspace.activeBuffer? =
      some ⟨"*scratch*", "ab", 1, "Lisp Interaction", false, false⟩ := by decide +kernel
  have bound : Chain.global.lookup? Primitive.insert.name = some (.prim .insert) := rfl
  have calls : [[Value.str "x", .num 2.5], [.sym "y"]] ≠ [] := List.cons_ne_nil _ _
  have same := (eval_inserts_eq_insert 0 bound active ⟨by decide, by decide⟩ calls).1
  exact ⟨by decide +kernel, by decide +kernel, same.symm⟩

end BufferLisp
