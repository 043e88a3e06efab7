import BufferLisp.Editor.Command
import BufferLisp.Proofs.Workspace.Active
import BufferLisp.Proofs.Workspace.WellFormed
import BufferLisp.Text.Split

/-!
# Moving by lines

The commands that move the cursor by a line look for newlines around it.  What they do is easier to
say of the lines that the text is split into: the cursor goes to the same column of the next or the
previous row, or to the end of that row if it is shorter, and on the last or the first row it stays
(`Editor.lineMotion_rows`).

A line of the split text is a part of the text without newlines, with nothing or a newline before it
and nothing or a newline behind it (`Text.exists_parts`).  From any place in it the searches for
newlines find where it starts and where it ends (`Text.lineStart_offset`, `Text.lineEnd_offset`).
-/

set_option autoImplicit false

namespace BufferLisp

namespace Text

/-! ## Rows and columns -/

/-- The offset of a column of a row: each line before it takes up its characters and a newline. -/
def offset : (lines : List (List Char)) → (row column : Nat) → Nat
  | line :: lines, row + 1, column => line.length + 1 + offset lines row column
  | _, _, column => column

/-- The cursor is at a column of a row: somewhere in the line of that row, or right behind it. -/
structure At (lines : List (List Char)) (row column : Nat) (cursor : Int) : Prop where
  within : ∃ line, lines[row]? = some line ∧ column ≤ line.length
  cursor : cursor = offset lines row column

theorem offset_zero (lines : List (List Char)) (column : Nat) : offset lines 0 column = column := by
  cases lines <;> rfl

theorem offset_cons (line : List Char) (lines : List (List Char)) (row column : Nat) :
    offset (line :: lines) (row + 1) column = line.length + 1 + offset lines row column := rfl

theorem offset_add (lines : List (List Char)) (row column : Nat) :
    offset lines row column = offset lines row 0 + column := by
  induction lines generalizing row with
  | nil => simp [offset]
  | cons line lines ih =>
      cases row with
      | zero => rw [offset_zero, offset_zero, Nat.zero_add]
      | succ row => rw [offset_cons, offset_cons, ih, ← Nat.add_assoc]

/-- The next row starts behind the newline of this one. -/
theorem offset_succ {lines : List (List Char)} {row : Nat} {line : List Char}
    (here : lines[row]? = some line) (column : Nat) :
    offset lines (row + 1) column = offset lines row line.length + 1 + column := by
  induction lines generalizing row with
  | nil => nomatch here
  | cons top lines ih =>
      cases row with
      | zero =>
          obtain rfl : top = line := Option.some.inj here
          rw [offset_cons, offset_zero, offset_zero]
      | succ row =>
          rw [offset_cons, ih here, offset_cons]
          omega

/-- An offset is at one place only. -/
theorem At.unique {lines : List (List Char)} {row column row' column' : Nat} {cursor : Int}
    (first : At lines row column cursor) (second : At lines row' column' cursor) :
    row = row' ∧ column = column' := by
  obtain ⟨⟨line, here, within⟩, rfl⟩ := first
  obtain ⟨⟨line', here', within'⟩, same⟩ := second
  replace same : offset lines row column = offset lines row' column' := Int.ofNat_inj.mp same
  induction lines generalizing row row' with
  | nil => nomatch here
  | cons top lines ih =>
      cases row with
      | zero =>
          obtain rfl : top = line := Option.some.inj here
          cases row' with
          | zero => exact ⟨rfl, by simpa [offset_zero] using same⟩
          | succ row' =>
              rw [offset_zero, offset_cons] at same
              omega
      | succ row =>
          cases row' with
          | zero =>
              obtain rfl : top = line' := Option.some.inj here'
              rw [offset_zero, offset_cons] at same
              omega
          | succ row' =>
              rw [offset_cons, offset_cons] at same
              obtain ⟨rows, columns⟩ := ih here here' (by omega)
              exact ⟨congrArg Nat.succ rows, columns⟩

/-! ## Splitting into lines -/

theorem splitAt_eq_cons (cs : List Char) : ∃ first others, splitAt '\n' cs = first :: others := by
  cases cs with
  | nil => exact ⟨[], [], rfl⟩
  | cons c cs =>
      rw [splitAt]
      split
      · exact ⟨[], _, rfl⟩
      · cases splitAt '\n' cs with
        | nil => exact ⟨[c], [], rfl⟩
        | cons first others => exact ⟨c :: first, others, rfl⟩

theorem splitAt_newline (cs : List Char) : splitAt '\n' ('\n' :: cs) = [] :: splitAt '\n' cs := rfl

/-- A character that is no newline belongs to the first line. -/
theorem splitAt_inline {c : Char} (inline : c ≠ '\n') {cs first : List Char}
    {others : List (List Char)} (split : splitAt '\n' cs = first :: others) :
    splitAt '\n' (c :: cs) = (c :: first) :: others := by
  rw [splitAt, if_neg inline, split, pushFront]

/-- A line with the text before and behind it. -/
structure IsLine (front line back : List Char) : Prop where
  starts : ∀ c ∈ front.getLast?, c = '\n'
  inline : ∀ c ∈ line, c ≠ '\n'
  ends : ∀ c ∈ back.head?, c = '\n'

/-- **A line of the split text stands between newlines**, and nothing stands behind it exactly if it
is the last one. -/
theorem exists_parts {cs line : List Char} {row : Nat}
    (here : (splitAt '\n' cs)[row]? = some line) :
    ∃ front back, cs = front ++ (line ++ back) ∧ IsLine front line back ∧
      front.length = offset (splitAt '\n' cs) row 0 ∧
      (back = [] ↔ (splitAt '\n' cs)[row + 1]? = none) := by
  induction cs generalizing row line with
  | nil =>
      cases row with
      | zero =>
          obtain rfl : [] = line := Option.some.inj here
          exact ⟨[], [], rfl, ⟨by simp, by simp, by simp⟩, rfl, iff_of_true rfl rfl⟩
      | succ row => nomatch here
  | cons c cs ih =>
      obtain ⟨first, others, split⟩ := splitAt_eq_cons cs
      by_cases newline : c = '\n'
      · subst newline
        rw [splitAt_newline] at here ⊢
        cases row with
        | zero =>
            obtain rfl : [] = line := Option.some.inj here
            refine ⟨[], '\n' :: cs, rfl, ⟨by simp, by simp, by simp⟩, rfl, ?_⟩
            simp [split]
        | succ row =>
            obtain ⟨front, back, text, ⟨starts, inline, ends⟩, length, last⟩ := ih here
            refine ⟨'\n' :: front, back, congrArg _ text, ⟨?_, inline, ends⟩, ?_, last⟩
            · cases front with
              | nil => simp
              | cons d front => simpa using starts
            · rw [offset_cons, List.length_cons, length]
              exact Nat.add_comm _ _
      · rw [splitAt_inline newline split] at here ⊢
        rw [split] at ih
        cases row with
        | zero =>
            obtain rfl : c :: first = line := Option.some.inj here
            obtain ⟨front, back, text, ⟨starts, inline, ends⟩, length, last⟩ := @ih first 0 rfl
            obtain rfl := List.eq_nil_of_length_eq_zero length
            refine ⟨[], back, congrArg _ text, ⟨starts, ?_, ends⟩, rfl, last⟩
            simpa [newline] using inline
        | succ row =>
            obtain ⟨front, back, text, ⟨starts, inline, ends⟩, length, last⟩ :=
              @ih line (row + 1) here
            rw [offset_cons] at length
            refine ⟨c :: front, back, congrArg _ text, ⟨?_, inline, ends⟩, ?_, last⟩
            · cases front with
              | nil =>
                  rw [List.length_nil] at length
                  omega
              | cons d front => simpa using starts
            · rw [offset_cons, List.length_cons, List.length_cons, length]
              omega

/-- Every offset within the text is at some place. -/
theorem exists_at {cs : List Char} {n : Nat} (within : n ≤ cs.length) :
    ∃ row column, At (splitAt '\n' cs) row column n := by
  induction cs generalizing n with
  | nil =>
      obtain rfl := Nat.le_zero.mp within
      exact ⟨0, 0, ⟨⟨[], rfl, Nat.le_refl 0⟩, rfl⟩⟩
  | cons c cs ih =>
      cases n with
      | zero =>
          obtain ⟨first, others, split⟩ := splitAt_eq_cons (c :: cs)
          exact ⟨0, 0, ⟨⟨first, by rw [split]; rfl, Nat.zero_le _⟩, by rw [offset_zero]⟩⟩
      | succ n =>
          obtain ⟨first, others, split⟩ := splitAt_eq_cons cs
          obtain ⟨row, column, ⟨line, here, inside⟩, cursor⟩ := ih (Nat.le_of_succ_le_succ within)
          have cursor : n = offset (splitAt '\n' cs) row column := Int.ofNat_inj.mp cursor
          by_cases newline : c = '\n'
          · subst newline
            refine ⟨row + 1, column, ⟨line, here, inside⟩, ?_⟩
            rw [splitAt_newline, offset_cons, ← cursor, List.length_nil]
            omega
          · rw [split] at here cursor
            rw [splitAt_inline newline split]
            cases row with
            | zero =>
                obtain rfl : first = line := Option.some.inj here
                refine ⟨0, column + 1, ⟨c :: first, rfl, Nat.succ_le_succ inside⟩, ?_⟩
                rw [offset_zero] at cursor ⊢
                rw [cursor]
            | succ row =>
                refine ⟨row + 1, column, ⟨line, here, inside⟩, ?_⟩
                rw [offset_cons] at cursor ⊢
                rw [List.length_cons]
                omega

/-! ## What the searches find -/

theorem takeWhile_isInline {inside behind : List Char} (inline : ∀ c ∈ inside, c ≠ '\n')
    (stop : ∀ c ∈ behind.head?, c = '\n') : (inside ++ behind).takeWhile isInline = inside := by
  rw [List.takeWhile_append_of_pos fun c member => by simpa [isInline] using inline c member]
  cases behind with
  | nil => simp
  | cons c behind =>
      obtain rfl := stop c rfl
      rw [List.takeWhile_cons_of_neg (by decide), List.append_nil]

namespace IsLine

variable {front line back : List Char} (isLine : IsLine front line back) {column : Nat}
  (within : column ≤ line.length)

include isLine within

theorem lineStart_eq :
    lineStart (front ++ (line ++ back)) (front.length + column) = front.length := by
  have left : (front ++ (line ++ back)).take (front.length + column) =
      front ++ line.take column := by
    rw [List.take_length_add_append, List.take_append_of_le_length within]
  have found := @takeWhile_isInline (line.take column).reverse front.reverse
    (fun c member => isLine.inline c (List.mem_of_mem_take (List.mem_reverse.mp member)))
    (fun c head => isLine.starts c (by rwa [List.head?_reverse] at head))
  unfold lineStart
  dsimp only
  rw [left, List.reverse_append, found, List.length_append, List.length_reverse,
    Nat.add_sub_cancel]

theorem lineEnd_eq :
    lineEnd (front ++ (line ++ back)) (front.length + column) = front.length + line.length := by
  have found := @takeWhile_isInline (line.drop column) back
    (fun c member => isLine.inline c (List.mem_of_mem_drop member)) isLine.ends
  rw [lineEnd, List.drop_length_add_append, List.drop_append_of_le_length within, found,
    List.length_drop]
  omega

/-- A newline follows unless the line is at the end of the text. -/
theorem hasLineAfter_eq :
    hasLineAfter (front ++ (line ++ back)) (front.length + column) = !back.isEmpty := by
  have none : '\n' ∉ line.drop column := fun member =>
    isLine.inline _ (List.mem_of_mem_drop member) rfl
  rw [hasLineAfter, List.drop_length_add_append, List.drop_append_of_le_length within]
  cases back with
  | nil => simpa using none
  | cons c back =>
      obtain rfl := isLine.ends c rfl
      simp

end IsLine

section Rows

variable {cs line : List Char} {row column : Nat} (here : (splitAt '\n' cs)[row]? = some line)
  (within : column ≤ line.length)

include here within

theorem lineStart_offset :
    lineStart cs (offset (splitAt '\n' cs) row column) = offset (splitAt '\n' cs) row 0 := by
  obtain ⟨front, back, text, isLine, start, -⟩ := exists_parts here
  rw [offset_add, ← start, text]
  exact isLine.lineStart_eq within

theorem lineEnd_offset :
    lineEnd cs (offset (splitAt '\n' cs) row column) =
      offset (splitAt '\n' cs) row line.length := by
  obtain ⟨front, back, text, isLine, start, -⟩ := exists_parts here
  rw [offset_add, offset_add _ row line.length, ← start, text]
  exact isLine.lineEnd_eq within

theorem hasLineAfter_offset :
    hasLineAfter cs (offset (splitAt '\n' cs) row column) = (splitAt '\n' cs)[row + 1]?.isSome := by
  obtain ⟨front, back, text, isLine, start, last⟩ := exists_parts here
  have after := isLine.hasLineAfter_eq within
  rw [← text, start, ← offset_add] at after
  rw [after, Bool.eq_iff_iff]
  simp [← Option.ne_none_iff_isSome, last]

theorem offset_le : offset (splitAt '\n' cs) row column ≤ cs.length := by
  obtain ⟨front, back, text, -, start, -⟩ := exists_parts here
  rw [offset_add, ← start, text, List.length_append, List.length_append]
  omega

/-- With a row below, the cursor goes there. -/
theorem downLine_offset {next : List Char} (below : (splitAt '\n' cs)[row + 1]? = some next) :
    downLine cs (offset (splitAt '\n' cs) row column) =
      offset (splitAt '\n' cs) (row + 1) (min column next.length) := by
  have start : offset (splitAt '\n' cs) row line.length + 1 =
      offset (splitAt '\n' cs) (row + 1) 0 := (offset_succ here 0).symm
  unfold downLine
  dsimp only
  rw [index_ofNat (offset_le here within), hasLineAfter_offset here within, below,
    Option.isSome_some, if_pos rfl, lineStart_offset here within, lineEnd_offset here within, start,
    lineEnd_offset below (Nat.zero_le _), offset_add _ row column, offset_add _ _ next.length,
    offset_add _ _ (min column next.length)]
  omega

/-- On the last row the cursor stays. -/
theorem downLine_last (last : (splitAt '\n' cs)[row + 1]? = none) :
    downLine cs (offset (splitAt '\n' cs) row column) = offset (splitAt '\n' cs) row column := by
  unfold downLine
  dsimp only
  rw [index_ofNat (offset_le here within), hasLineAfter_offset here within, last]
  rfl

/-- On the first row the cursor stays. -/
theorem upLine_first (first : row = 0) :
    upLine cs (offset (splitAt '\n' cs) row column) = offset (splitAt '\n' cs) row column := by
  unfold upLine
  dsimp only
  rw [index_ofNat (offset_le here within), lineStart_offset here within, first, offset_zero,
    if_pos rfl]

end Rows

/-- With a row above, the cursor goes there. -/
theorem upLine_offset {cs line above : List Char} {row column : Nat}
    (here : (splitAt '\n' cs)[row + 1]? = some line) (within : column ≤ line.length)
    (up : (splitAt '\n' cs)[row]? = some above) :
    upLine cs (offset (splitAt '\n' cs) (row + 1) column) =
      offset (splitAt '\n' cs) row (min column above.length) := by
  have start : offset (splitAt '\n' cs) (row + 1) 0 =
      offset (splitAt '\n' cs) row above.length + 1 := offset_succ up 0
  unfold upLine
  dsimp only
  rw [index_ofNat (offset_le here within), lineStart_offset here within, start,
    if_neg (Nat.succ_ne_zero _), Nat.add_sub_cancel, lineStart_offset up (Nat.le_refl _),
    offset_add _ _ column, start, offset_add _ _ above.length,
    offset_add _ _ (min column above.length)]
  omega

end Text

/-! ## Moving the cursor of the active buffer -/

namespace Editor

/-- The editor with the cursor of its active buffer at an offset, and all else as it is. -/
def withCursor (editor : Editor) (cursor : Int) : Editor :=
  { editor with host := editor.host.modifyActive fun buffer => { buffer with cursor } }

section Active

variable {editor : Editor} {buffer : Buffer} (active : editor.host.activeBuffer? = some buffer)

include active

theorem runOn_changeBuffer (change : Buffer → Buffer) :
    (EditorM.changeBuffer change).runOn editor =
      (.ok (), { editor with host := editor.host.modifyActive change }) := by
  rw [EditorM.changeBuffer, EditorM.runOn_bind, EditorM.runOn_activeBuffer, active]
  rfl

theorem runOn_nextLine :
    nextLine.runOn editor =
      (.ok (), editor.withCursor (Text.downLine buffer.content.toList buffer.cursor)) := by
  have moved : editor.host.modifyActive (·.down) = editor.host.modifyActive
      ({ · with cursor := Text.downLine buffer.content.toList buffer.cursor }) :=
    Workspace.modifyActive_congr active rfl
  rw [nextLine, runOn_changeBuffer active, moved, withCursor]

theorem runOn_previousLine :
    previousLine.runOn editor =
      (.ok (), editor.withCursor (Text.upLine buffer.content.toList buffer.cursor)) := by
  have moved : editor.host.modifyActive (·.up) = editor.host.modifyActive
      ({ · with cursor := Text.upLine buffer.content.toList buffer.cursor }) :=
    Workspace.modifyActive_congr active rfl
  rw [previousLine, runOn_changeBuffer active, moved, withCursor]

theorem activeBuffer?_withCursor (cursor : Int) :
    (editor.withCursor cursor).host.activeBuffer? = some { buffer with cursor } :=
  Workspace.activeBuffer?_of_modifyActive active rfl

theorem withCursor_self : editor.withCursor buffer.cursor = editor := by
  rw [withCursor, Workspace.modifyActive_eq_self active rfl]

theorem withCursor_withCursor (first second : Int) :
    (editor.withCursor first).withCursor second = editor.withCursor second := by
  rw [withCursor, withCursor, withCursor, Workspace.modifyActive_modifyActive active rfl]

end Active

/-- **Moving by a line is moving by a row of the split text.**  Say that the cursor of the active
buffer is within its text.  Then it is at one column of one row.  Moving to the next line puts it at
the same column of the next row, or at the end of that row if it is shorter, and changes nothing
else; on the last row it does nothing at all.  Moving to the previous line does the same with the
previous row, and nothing at all on the first row.  Hence moving to the previous line undoes moving
to the next one if that is long enough. -/
theorem lineMotion_rows {editor : Editor} {buffer : Buffer}
    (active : editor.host.activeBuffer? = some buffer) (inText : buffer.CursorInText) :
    let lines := Text.splitAt '\n' buffer.content.toList
    ∃ row column, (∀ r c, Text.At lines r c buffer.cursor ↔ r = row ∧ c = column) ∧
      (∀ next, lines[row + 1]? = some next →
        nextLine.runOn editor =
          (.ok (), editor.withCursor (Text.offset lines (row + 1) (min column next.length)))) ∧
      (lines[row + 1]? = none → nextLine.runOn editor = (.ok (), editor)) ∧
      (∀ above line, row = above + 1 → lines[above]? = some line →
        previousLine.runOn editor =
          (.ok (), editor.withCursor (Text.offset lines above (min column line.length)))) ∧
      (row = 0 → previousLine.runOn editor = (.ok (), editor)) ∧
      (∀ next, lines[row + 1]? = some next → column ≤ next.length →
        (nextLine >>= fun _ => previousLine).runOn editor = (.ok (), editor)) := by
  intro lines
  obtain ⟨low, high⟩ := inText
  rw [← String.length_toList] at high
  obtain ⟨row, column, here⟩ := @Text.exists_at buffer.content.toList buffer.cursor.toNat (by omega)
  rw [Int.toNat_of_nonneg low] at here
  obtain ⟨⟨line, inRow, within⟩, cursor⟩ := id here
  have down : ∀ next, lines[row + 1]? = some next → nextLine.runOn editor =
      (.ok (), editor.withCursor (Text.offset lines (row + 1) (min column next.length))) := by
    intro next below
    rw [runOn_nextLine active, cursor, Text.downLine_offset inRow within below]
  refine ⟨row, column, ?_, down, ?_, ?_, ?_, ?_⟩
  · intro r c
    constructor
    · intro there
      exact there.unique here
    · rintro ⟨rfl, rfl⟩
      exact here
  · intro last
    rw [runOn_nextLine active, cursor, Text.downLine_last inRow within last, ← cursor,
      withCursor_self active]
  · rintro above line rfl up
    rw [runOn_previousLine active, cursor, Text.upLine_offset inRow within up]
  · intro first
    rw [runOn_previousLine active, cursor, Text.upLine_first inRow within first, ← cursor,
      withCursor_self active]
  · intro next below long
    rw [EditorM.runOn_bind, down next below, Nat.min_eq_left long]
    dsimp only
    rw [runOn_previousLine (activeBuffer?_withCursor active _), withCursor_withCursor active]
    dsimp only
    rw [Text.upLine_offset below long inRow, Nat.min_eq_left within, ← cursor,
      withCursor_self active]

/-- From the third place of the middle row: the row above is shorter, the row below ends there. -/
theorem lineMotion_rows_middle :
    let editor : Editor :=
      ⟨Chain.global, (Workspace.fresh "a\ncdef\ngh").modifyActive (·.moveTo 4)⟩
    nextLine.runOn editor = (.ok (), editor.withCursor 9) ∧
      previousLine.runOn editor = (.ok (), editor.withCursor 1) ∧
      (nextLine >>= fun _ => previousLine).runOn editor = (.ok (), editor) := by
  intro editor
  have active : editor.host.activeBuffer? =
      some ⟨"*scratch*", "a\ncdef\ngh", 4, "Lisp Interaction", false, false⟩ := rfl
  obtain ⟨row, column, place, down, -, up, -, back⟩ :=
    lineMotion_rows active ⟨by decide, by decide⟩
  obtain ⟨rfl, rfl⟩ := (place 1 2).mp ⟨⟨['c', 'd', 'e', 'f'], rfl, by decide⟩, rfl⟩
  exact ⟨down ['g', 'h'] rfl, up 0 ['a'] rfl rfl, back ['g', 'h'] rfl (by decide)⟩

end Editor

end BufferLisp
