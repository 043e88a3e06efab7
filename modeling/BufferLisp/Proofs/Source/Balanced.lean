import BufferLisp.Proofs.Source.LastExpression
import BufferLisp.Proofs.Source.Nesting

/-!
# The shortest balanced text before a parenthesis

Behind a closing parenthesis, the search for the expression before the cursor finds the shortest
text that ends there and holds as many opening as closing parentheses, and it finds nothing exactly
if there is no such text (`lastExpression?_eq_balanced`).  If there is no quote in what was found
then a reader reads it as one list, from its first character to its last.

Both are a matter of the `excess` of opening over closing parentheses.  Going backward, the search
stops where the excess first is positive (`LastExpression.backToOpening_search`).  Going forward
over what was found, the excess is positive from the first character on and is zero only at the end,
and without strings it is the depth that the reader goes by (`extent_of_unquoted`).
-/

set_option autoImplicit false

namespace BufferLisp

/-- A text with as many opening as closing parentheses. -/
def Balanced (cs : List Char) : Prop :=
  cs.count '(' = cs.count ')'

instance (cs : List Char) : Decidable (Balanced cs) :=
  inferInstanceAs (Decidable (cs.count '(' = cs.count ')'))

/-! ## Excess -/

/-- How many more opening than closing parentheses there are. -/
def excess (cs : List Char) : Int :=
  cs.count '(' - cs.count ')'

theorem balanced_iff (cs : List Char) : Balanced cs ↔ excess cs = 0 := by
  unfold Balanced excess
  omega

@[simp] theorem excess_nil : excess [] = 0 := rfl

theorem excess_append (front back : List Char) :
    excess (front ++ back) = excess front + excess back := by
  unfold excess
  rw [List.count_append, List.count_append]
  omega

theorem excess_cons (c : Char) (cs : List Char) : excess (c :: cs) = excess [c] + excess cs :=
  excess_append [c] cs

theorem excess_reverse (cs : List Char) : excess cs.reverse = excess cs := by
  unfold excess
  rw [List.count_reverse, List.count_reverse]

theorem excess_eq_zero {cs : List Char} (plain : ∀ c ∈ cs, c ≠ '(' ∧ c ≠ ')') : excess cs = 0 := by
  unfold excess
  rw [List.count_eq_zero.mpr fun member => (plain _ member).1 rfl,
    List.count_eq_zero.mpr fun member => (plain _ member).2 rfl]
  rfl

/-! ## The search -/

namespace LastExpression

/-- What a search for an opening parenthesis comes to, with `inner` lists still to be opened: it
goes through the whole text, or it stops where the excess first is greater than that number. -/
inductive Search (inner : Nat) (cs : List Char) : Option (List Char) → Prop
  | missing (below : ∀ m, excess (cs.take m) ≤ inner) : Search inner cs none
  | found {n : Nat} (within : n ≤ cs.length) (below : ∀ m < n, excess (cs.take m) ≤ inner)
      (reached : excess (cs.take n) = inner + 1) : Search inner cs (some (cs.take n))

/-- A character that does not end the search is part of what is found. -/
theorem Search.cons {inner deeper : Nat} {c : Char} {cs : List Char} {result : Option (List Char)}
    (level : (inner : Int) = excess [c] + deeper) (search : Search deeper cs result) :
    Search inner (c :: cs) (result.map (c :: ·)) := by
  cases search with
  | missing below =>
      refine .missing fun m => ?_
      cases m with
      | zero => exact Int.natCast_nonneg inner
      | succ m =>
          have shorter := below m
          rw [List.take_succ_cons, excess_cons]
          omega
  | @found n within below reached =>
      have here : (c :: cs).take (n + 1) = c :: cs.take n := List.take_succ_cons
      rw [Option.map_some, ← here]
      refine .found (Nat.succ_le_succ within) (fun m before => ?_) ?_
      · cases m with
        | zero => exact Int.natCast_nonneg inner
        | succ m =>
            have shorter := below m (by omega)
            rw [List.take_succ_cons, excess_cons]
            omega
      · rw [here, excess_cons]
        omega

/-- **The search stops where the excess first is greater than the number of lists to be opened.** -/
theorem backToOpening_search (inner : Nat) (cs : List Char) :
    Search inner cs (backToOpening inner cs) := by
  induction cs generalizing inner with
  | nil =>
      rw [backToOpening]
      exact .missing fun m => by simp
  | cons c cs ih =>
      by_cases opens : c = '('
      · subst opens
        cases inner with
        | zero =>
            rw [backToOpening]
            exact .found (n := 1) (by simp) (fun m before => by simp [Nat.lt_one_iff.mp before]) rfl
        | succ inner =>
            rw [backToOpening]
            have level : excess ['('] = 1 := rfl
            exact (ih inner).cons (by omega)
      · by_cases closes : c = ')'
        · subst closes
          rw [backToOpening]
          have level : excess [')'] = -1 := rfl
          exact (ih (inner + 1)).cons (by omega)
        · rw [backToOpening_cons opens closes]
          have level : excess [c] = 0 := excess_eq_zero (by simpa using ⟨opens, closes⟩)
          exact (ih inner).cons (by omega)

end LastExpression

/-! ## The reader -/

namespace Piece

/-- A piece that is no string moves the depth with its last character, by its excess. -/
theorem excess_chars {c : Char} (notQuote : c ≠ '"') (rest : List Char) :
    (∀ m < (first c rest).width, excess ((first c rest).chars.take m) = 0) ∧
      excess (first c rest).chars = (first c rest).change := by
  have single : ∀ (d : Char), ∀ m < [d].length, excess ([d].take m) = 0 := by
    intro d m before
    rw [Nat.lt_one_iff.mp before, List.take_zero, excess_nil]
  fun_cases first c rest with
  | case1 blank =>
      have plain := LastExpression.ne_paren_of_mark (.inl blank)
      exact ⟨single c, excess_eq_zero (by simpa [chars] using plain)⟩
  | case2 solid opens => exact ⟨single _, rfl⟩
  | case3 solid notOpen closes => exact ⟨single _, rfl⟩
  | case4 solid notOpen notClose mark => exact ⟨single _, rfl⟩
  | case5 solid notOpen notClose notMark quote => exact absurd quote notQuote
  | case6 solid notOpen notClose notMark _ =>
      have plain : ∀ d ∈ c :: Token.atomPart rest, d ≠ '(' ∧ d ≠ ')' := by
        intro d member
        rcases List.mem_cons.mp member with rfl | member
        · exact ⟨notOpen, notClose⟩
        · exact (Token.isBlank_of_not_isDelimiter (Token.isDelimiter_of_mem_atomPart member)).2
      refine ⟨fun m _ => ?_, excess_eq_zero plain⟩
      exact excess_eq_zero fun d member => plain d (List.mem_of_mem_take member)

end Piece

/-- **Without strings, the depth is zero where the excess makes it so.** -/
theorem extent_of_unquoted {cs : List Char} (unquoted : '"' ∉ cs) {depth : Int} {n : Nat}
    (positive : 0 < depth) (within : n ≤ cs.length)
    (above : ∀ m < n, 0 < depth + excess (cs.take m)) (zero : depth + excess (cs.take n) = 0) :
    extent depth (pieces cs) = some n := by
  induction cs using pieces.induct generalizing depth n with
  | case1 =>
      rw [List.take_nil, excess_nil] at zero
      omega
  | case2 c rest ih =>
      have notQuote : c ≠ '"' := fun quote => unquoted (quote ▸ List.mem_cons_self)
      obtain ⟨level, change⟩ := Piece.excess_chars notQuote rest
      have text := Piece.chars_append_drop c rest
      rw [pieces_cons, extent]
      generalize Piece.first c rest = piece at ih level change text ⊢
      generalize rest.drop (piece.width - 1) = after at ih text ⊢
      -- What is counted within the piece, at its end and behind it.
      have inside : ∀ m < piece.width, excess ((c :: rest).take m) = 0 := by
        intro m before
        rw [← text, List.take_append_of_le_length (Nat.le_of_lt before), level m before]
      have behind : ∀ m, excess ((c :: rest).take (piece.width + m)) =
          piece.change + excess (after.take m) := by
        intro m
        rw [← text, Piece.width, List.take_length_add_append, excess_append, change]
      have here := behind 0
      rw [Nat.add_zero, List.take_zero, excess_nil, Int.add_zero] at here
      rcases Nat.lt_trichotomy n piece.width with before | same | beyond
      · rw [inside n before] at zero
        omega
      · rw [same, here] at zero
        rw [if_pos zero, same]
      · have positive := above piece.width beyond
        rw [here] at positive
        obtain ⟨k, rfl⟩ := Nat.exists_eq_add_of_le (Nat.le_of_lt beyond)
        have rest := ih (fun quote => unquoted (text ▸ List.mem_append_right _ quote)) positive
          (n := k) ?_ (fun m before => ?_) ?_
        · rw [if_neg (by omega), rest, Option.map_some]
        · rw [← text, List.length_append] at within
          exact Nat.le_of_add_le_add_left within
        · have above := above (piece.width + m) (by omega)
          rw [behind] at above
          omega
        · rw [behind] at zero
          omega

namespace LastExpression

/-- Only an opening parenthesis has a positive excess. -/
theorem eq_opening_of_excess {c : Char} (positive : 0 < excess [c]) : c = '(' := by
  refine Decidable.byContradiction fun other => ?_
  have none : [c].count '(' = 0 := List.count_eq_zero.mpr (by simpa [eq_comm] using other)
  rw [excess, none] at positive
  omega

/-- What is found ends, going backward, with an opening parenthesis, and before that the text is
balanced. -/
theorem Search.opening {cs found : List Char} (search : Search 0 cs (some found)) :
    ∃ k, found = cs.take k ++ ['('] ∧ k < cs.length ∧ excess (cs.take k) = 0 ∧
      ∀ m ≤ k, excess (cs.take m) ≤ 0 := by
  cases search with
  | @found n within below reached =>
      cases n with
      | zero => nomatch reached
      | succ k =>
          have split : cs.take (k + 1) = cs.take k ++ [cs[k]] :=
            List.take_succ_eq_append_getElem within
          have level := below k (Nat.lt_succ_self k)
          rw [split, excess_append] at reached
          have opens := eq_opening_of_excess (c := cs[k]) (by omega)
          rw [opens] at split reached
          have one : excess ['('] = 1 := rfl
          exact ⟨k, split, within, by omega, fun m before => below m (Nat.lt_succ_of_le before)⟩

/-- Going forward over what was found, the excess is nowhere negative. -/
theorem excess_take_reverse {cs : List Char} {k : Nat} (within : k ≤ cs.length)
    (zero : excess (cs.take k) = 0) (below : ∀ m ≤ k, excess (cs.take m) ≤ 0) (m : Nat) :
    0 ≤ excess ((cs.take k).reverse.take m) := by
  have length : (cs.take k).length = k := List.length_take_of_le within
  rw [List.take_reverse, length, excess_reverse]
  have parts := congrArg excess (List.take_append_drop (k - m) (cs.take k))
  rw [excess_append, List.take_take, Nat.min_eq_left (Nat.sub_le k m), zero] at parts
  have early := below (k - m) (Nat.sub_le k m)
  omega

/-- A list without strings ends where the excess first is back to zero. -/
theorem extent_list {body : List Char} (unquoted : '"' ∉ body)
    (nonneg : ∀ m, 0 ≤ excess (body.take m)) (zero : excess body = 0) :
    extent 0 (pieces ('(' :: (body ++ [')']))) = some (body.length + 2) := by
  have piece : Piece.first '(' (body ++ [')']) = .opening := rfl
  have inside : extent 1 (pieces (body ++ [')'])) = some (body.length + 1) := by
    have nowhere : '"' ∉ body ++ [')'] := by simpa using unquoted
    refine extent_of_unquoted nowhere (by decide) (by simp) (fun m before => ?_) ?_
    · have level := nonneg m
      rw [List.take_append_of_le_length (Nat.le_of_lt_succ before)]
      omega
    · have one : excess [')'] = -1 := rfl
      rw [List.take_of_length_le (by simp), excess_append, zero, one]
      rfl
  rw [pieces_cons, piece, extent, if_neg (by decide)]
  change (extent 1 (pieces (body ++ [')']))).map (1 + ·) = _
  rw [inside, Option.map_some, Nat.add_comm 1]

/-- **What was found is read as one list**, if there is no quote in it. -/
theorem next_of_search {before found : List Char} (search : Search 0 before (some found))
    (unquoted : '"' ∉ found) :
    ∃ items, (Reader.ofSource (String.ofList (found.reverse ++ [')']))).next =
      (.ok (.list items), ⟨String.ofList (found.reverse ++ [')']), found.length + 1⟩) := by
  obtain ⟨k, rfl, within, zero, below⟩ := search.opening
  have text : (before.take k ++ ['(']).reverse ++ [')'] =
      '(' :: ((before.take k).reverse ++ [')']) := by
    rw [List.reverse_append]
    rfl
  have count := @extent_list (before.take k).reverse (by simpa using unquoted)
    (excess_take_reverse (Nat.le_of_lt within) zero below) (by rw [excess_reverse, zero])
  rw [text, List.length_append, ← List.length_reverse]
  generalize (before.take k).reverse = body at count ⊢
  have next := @Reader.next_of_extent (String.ofList ('(' :: (body ++ [')']))) 0 _
    (by rw [String.toList_ofList]; rfl) (by rw [String.toList_ofList, List.drop_zero, count])
  rwa [Nat.zero_add] at next

end LastExpression

/-! ## Behind a closing parenthesis -/

/-- The part of a text from an index up to and including another one. -/
def Text.through (text : String) (first last : Nat) : List Char :=
  (text.toList.take (last + 1)).drop first

/-- The part up to a closing parenthesis, from what the search sees before that parenthesis. -/
theorem Text.through_eq {text : String} {k : Nat} (closes : text.toList[k]? = some ')') {i : Nat}
    (before : i ≤ k) :
    Text.through text i k = ((text.toList.take k).reverse.take (k - i)).reverse ++ [')'] := by
  obtain ⟨inside, here⟩ := List.getElem?_eq_some_iff.mp closes
  have length : (text.toList.take k).length = k := List.length_take_of_le (Nat.le_of_lt inside)
  rw [through, List.take_succ_eq_append_getElem inside, here,
    List.drop_append_of_le_length (by omega), List.take_reverse, List.reverse_reverse, length,
    Nat.sub_sub_self before]

theorem balanced_through_iff {text : String} {k : Nat} (closes : text.toList[k]? = some ')')
    {i : Nat} (before : i ≤ k) :
    Balanced (Text.through text i k) ↔
      excess ((text.toList.take k).reverse.take (k - i)) = 1 := by
  have one : excess [')'] = -1 := rfl
  rw [balanced_iff, Text.through_eq closes before, excess_append, excess_reverse, one]
  omega

/-- If only blanks stand behind a closing parenthesis then the search starts right before it. -/
theorem lastExpression?_of_closing {text : String} {cursor : Int} {k : Nat}
    (closes : text.toList[k]? = some ')') (before : (k : Int) < cursor)
    (blank : ∀ c ∈ (text.toList.take cursor.toNat).drop (k + 1), Text.isBlank c = true) :
    lastExpression? text cursor =
      (LastExpression.backToOpening 0 (text.toList.take k).reverse).map
        fun found => String.ofList (found.reverse ++ [')']) := by
  obtain ⟨inside, here⟩ := List.getElem?_eq_some_iff.mp closes
  have split := (List.take_append_drop (k + 1) (text.toList.take cursor.toNat)).symm
  rw [List.take_take, Nat.min_eq_left (by omega), List.take_succ_eq_append_getElem inside, here]
    at split
  have dropped : Text.dropBlanks (text.toList.take cursor.toNat).reverse =
      ')' :: (text.toList.take k).reverse := by
    rw [split, List.reverse_append, Text.dropBlanks,
      List.dropWhile_append_of_pos fun c member => blank c (List.mem_reverse.mp member),
      List.reverse_append]
    rfl
  rw [lastExpression?, dropped, LastExpression.backward, Option.map_map]
  congr 1
  funext found
  rw [Function.comp_apply, List.reverse_cons]

/-- What is found behind a closing parenthesis is read as one list, if there is no quote in it. -/
theorem next_of_closing {text : String} {cursor : Int} {k : Nat}
    (closes : text.toList[k]? = some ')') (before : (k : Int) < cursor)
    (blank : ∀ c ∈ (text.toList.take cursor.toNat).drop (k + 1), Text.isBlank c = true)
    {found : String} (last : lastExpression? text cursor = some found)
    (unquoted : '"' ∉ found.toList) :
    ∃ items, (Reader.ofSource found).next = (.ok (.list items), ⟨found, found.length⟩) := by
  rw [lastExpression?_of_closing closes before blank] at last
  obtain ⟨taken, there, rfl⟩ := Option.map_eq_some_iff.mp last
  have search := LastExpression.backToOpening_search 0 (text.toList.take k).reverse
  rw [there] at search
  have next := LastExpression.next_of_search search (by simpa using unquoted)
  rwa [String.length_ofList, List.length_append, List.length_reverse]

/-- **Behind a closing parenthesis, the shortest balanced text is found, and it is read as one
list.**  Say that only blanks stand between a closing parenthesis at index `k` and the cursor.  Of
the balanced texts that end with that parenthesis the shortest is found, and nothing is found
exactly if there is none.  If there is no quote in what was found then a reader reads a list from it
and stops at its end. -/
theorem lastExpression?_eq_balanced {text : String} {cursor : Int} {k : Nat}
    (closes : text.toList[k]? = some ')') (before : (k : Int) < cursor)
    (blank : ∀ c ∈ (text.toList.take cursor.toNat).drop (k + 1), Text.isBlank c = true) :
    (∀ i ≤ k, Balanced (Text.through text i k) →
        (∀ j ≤ k, i < j → ¬ Balanced (Text.through text j k)) →
          lastExpression? text cursor = some (String.ofList (Text.through text i k))) ∧
      (lastExpression? text cursor = none ↔ ∀ i ≤ k, ¬ Balanced (Text.through text i k)) ∧
      ∀ found, lastExpression? text cursor = some found → '"' ∉ found.toList →
        ∃ items, (Reader.ofSource found).next = (.ok (.list items), ⟨found, found.length⟩) := by
  rw [← and_assoc]
  refine ⟨?_, fun found => next_of_closing closes before blank⟩
  rw [lastExpression?_of_closing closes before blank]
  have search := LastExpression.backToOpening_search 0 (text.toList.take k).reverse
  generalize LastExpression.backToOpening 0 (text.toList.take k).reverse = result at search ⊢
  cases search with
  | missing below =>
      have uneven : ∀ i ≤ k, ¬ Balanced (Text.through text i k) := by
        intro i start even
        have level := below (k - i)
        rw [(balanced_through_iff closes start).mp even] at level
        omega
      exact ⟨fun i start even _ => absurd even (uneven i start), iff_of_true rfl uneven⟩
  | @found n within below reached =>
      have room : n ≤ k := by
        rw [List.length_reverse] at within
        exact Nat.le_trans within (List.length_take_le k _)
      have even : Balanced (Text.through text (k - n) k) := by
        rw [balanced_through_iff closes (Nat.sub_le k n), Nat.sub_sub_self room]
        exact reached
      refine ⟨?_, iff_of_false (fun none => nomatch none) fun uneven =>
        uneven (k - n) (Nat.sub_le k n) even⟩
      intro i start balanced greatest
      -- Going backward, both the search and the greatest index stop at the first balanced text.
      have same : k - i = n := by
        rcases Nat.lt_trichotomy (k - i) n with short | same | long
        · have level := below (k - i) short
          rw [(balanced_through_iff closes start).mp balanced] at level
          omega
        · exact same
        · exact absurd even (greatest (k - n) (Nat.sub_le k n) (by omega))
      rw [Text.through_eq closes start, same, Option.map_some]

/-- Quote marks before parentheses and an empty list, with a parenthesis too many in front and the
cursor far behind: the last list is found and read as a whole. -/
theorem lastExpression?_eq_balanced_marks :
    lastExpression? "x)('(a ') ()) \n" 99 = some "('(a ') ())" ∧
      (∃ items, (Reader.ofSource "('(a ') ())").next = (.ok (.list items), ⟨"('(a ') ())", 11⟩)) ∧
      lastExpression? "x)('(a ') ()) \n" 2 = none := by
  have wide := @lastExpression?_eq_balanced "x)('(a ') ()) \n" 99 12 (by decide) (by decide)
    (List.all_eq_true.mp (by decide))
  have early := @lastExpression?_eq_balanced "x)('(a ') ()) \n" 2 1 (by decide) (by decide)
    (List.all_eq_true.mp (by decide))
  have found := wide.1 2 (by decide) (by decide) (by decide)
  exact ⟨found, wide.2.2 _ found (by decide), early.2.1.mpr (by decide)⟩

end BufferLisp
