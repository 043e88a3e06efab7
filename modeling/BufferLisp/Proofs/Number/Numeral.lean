import BufferLisp.Number.Numeral
import BufferLisp.Proofs.Number.Rounding
import Mathlib.Data.List.TakeWhile

/-!
# The grammar of numerals

`IsNumeral` says what a numeral is: an optional minus sign, digits, and optionally a point with
digits behind it.  The reader of numerals takes exactly these (`isSome_ofChars?_iff`), takes them
apart in the only way there is, and rounds their exact value.
-/

set_option autoImplicit false

namespace BufferLisp

namespace Number

/-- One or more ASCII digits. -/
def IsDigits (cs : List Char) : Prop :=
  cs ≠ [] ∧ ∀ c ∈ cs, c.isDigit = true

/-- A whole part, and optionally a point and a fraction. -/
def IsUnsigned (cs : List Char) : Prop :=
  IsDigits cs ∨ ∃ whole fraction, IsDigits whole ∧ IsDigits fraction ∧ cs = whole ++ '.' :: fraction

/-- An optional minus sign and an unsigned numeral. -/
def IsNumeral (cs : List Char) : Prop :=
  IsUnsigned cs ∨ ∃ rest, IsUnsigned rest ∧ cs = '-' :: rest

theorem IsDigits.ne_sign {c : Char} {cs : List Char} (digits : IsDigits (c :: cs)) : c ≠ '-' := by
  rintro rfl
  exact absurd (digits.2 '-' (by simp)) (by decide)

/-- The characters of a numeral are digits, points and minus signs. -/
theorem IsNumeral.chars {cs : List Char} (numeral : IsNumeral cs) :
    ∀ c ∈ cs, c.isDigit = true ∨ c = '.' ∨ c = '-' := by
  have unsigned : ∀ {cs : List Char}, IsUnsigned cs → ∀ c ∈ cs, c.isDigit = true ∨ c = '.' := by
    rintro cs (digits | ⟨whole, fraction, front, back, rfl⟩) c member
    · exact .inl (digits.2 c member)
    · rcases List.mem_append.mp member with member | member
      · exact .inl (front.2 c member)
      · rcases List.mem_cons.mp member with rfl | member
        · exact .inr rfl
        · exact .inl (back.2 c member)
  rcases numeral with numeral | ⟨rest, numeral, rfl⟩
  · exact fun c member => (unsigned numeral c member).imp_right .inl
  · intro c member
    rcases List.mem_cons.mp member with rfl | member
    · exact .inr (.inr rfl)
    · exact (unsigned numeral c member).imp_right .inl

namespace Numeral

/-! ## Reading -/

theorem unsigned?_of_digits (negative : Bool) {whole : List Char} (digits : IsDigits whole) :
    unsigned? negative whole = some ⟨negative, whole, []⟩ := by
  have all : whole.takeWhile Char.isDigit = whole := List.takeWhile_eq_self_iff.mpr digits.2
  have rest : whole.dropWhile Char.isDigit = [] := List.dropWhile_eq_nil_iff.mpr digits.2
  simp [unsigned?, all, rest, digits.1]

theorem unsigned?_of_point (negative : Bool) {whole fraction : List Char}
    (front : IsDigits whole) (back : IsDigits fraction) :
    unsigned? negative (whole ++ '.' :: fraction) = some ⟨negative, whole, fraction⟩ := by
  have point : Char.isDigit '.' = false := by decide
  have taken : (whole ++ '.' :: fraction).takeWhile Char.isDigit = whole := by
    rw [List.takeWhile_append_of_pos front.2, List.takeWhile_cons_of_neg (by simp [point]),
      List.append_nil]
  have rest : (whole ++ '.' :: fraction).dropWhile Char.isDigit = '.' :: fraction := by
    rw [List.dropWhile_append_of_pos front.2, List.dropWhile_cons_of_neg (by simp [point])]
  simp [unsigned?, taken, rest, front.1, back.1, List.all_eq_true.mpr back.2]

theorem isUnsigned_of_unsigned? {negative : Bool} {cs : List Char} {numeral : Numeral}
    (taken : unsigned? negative cs = some numeral) : IsUnsigned cs := by
  have parts : cs.takeWhile Char.isDigit ++ cs.dropWhile Char.isDigit = cs :=
    List.takeWhile_append_dropWhile
  have front : ∀ c ∈ cs.takeWhile Char.isDigit, c.isDigit = true :=
    fun _ member => List.mem_takeWhile_imp member
  unfold unsigned? at taken
  dsimp only at taken
  split at taken
  · nomatch taken
  · next nonempty =>
    have nonempty : cs.takeWhile Char.isDigit ≠ [] := by simpa using nonempty
    split at taken
    · next rest =>
      rw [rest, List.append_nil] at parts
      rw [parts] at nonempty front
      exact .inl ⟨nonempty, front⟩
    · next fraction rest =>
      split at taken
      · next digits =>
        simp only [Bool.and_eq_true, Bool.not_eq_true', List.isEmpty_eq_false_iff,
          List.all_eq_true] at digits
        exact .inr ⟨_, fraction, ⟨nonempty, front⟩, digits, (rest ▸ parts).symm⟩
      · nomatch taken
    · nomatch taken

theorem ofChars?_minus (cs : List Char) : ofChars? ('-' :: cs) = unsigned? true cs := rfl

theorem ofChars?_of_ne {c : Char} (cs : List Char) (unsigned : c ≠ '-') :
    ofChars? (c :: cs) = unsigned? false (c :: cs) := by
  unfold ofChars?
  split
  · next same => exact absurd (List.cons.inj same).1 unsigned
  · rfl

/-- The characters of an unsigned numeral do not start with a sign. -/
theorem ofChars?_of_unsigned {cs : List Char} (unsigned : IsUnsigned cs) :
    ofChars? cs = unsigned? false cs := by
  have start : ∃ c rest, cs = c :: rest ∧ c ≠ '-' := by
    rcases unsigned with digits | ⟨whole, fraction, digits, -, rfl⟩
    · obtain ⟨c, rest, rfl⟩ := List.exists_cons_of_ne_nil digits.1
      exact ⟨c, rest, rfl, digits.ne_sign⟩
    · obtain ⟨c, rest, rfl⟩ := List.exists_cons_of_ne_nil digits.1
      exact ⟨c, _, rfl, digits.ne_sign⟩
  obtain ⟨c, rest, rfl, notSign⟩ := start
  exact ofChars?_of_ne rest notSign

theorem isSome_unsigned?_iff {negative : Bool} {cs : List Char} :
    (unsigned? negative cs).isSome = true ↔ IsUnsigned cs := by
  constructor
  · intro taken
    obtain ⟨numeral, taken⟩ := Option.isSome_iff_exists.mp taken
    exact isUnsigned_of_unsigned? taken
  · rintro (digits | ⟨whole, fraction, front, back, rfl⟩)
    · rw [unsigned?_of_digits negative digits]
      rfl
    · rw [unsigned?_of_point negative front back]
      rfl

/-- **A text is read as a numeral exactly if it is one.** -/
theorem isSome_ofChars?_iff {cs : List Char} : (ofChars? cs).isSome = true ↔ IsNumeral cs := by
  constructor
  · intro taken
    unfold ofChars? at taken
    split at taken
    · exact .inr ⟨_, isSome_unsigned?_iff.mp taken, rfl⟩
    · exact .inl (isSome_unsigned?_iff.mp taken)
  · rintro (unsigned | ⟨rest, unsigned, rfl⟩)
    · rw [ofChars?_of_unsigned unsigned]
      exact isSome_unsigned?_iff.mpr unsigned
    · exact isSome_unsigned?_iff.mpr unsigned

end Numeral

theorem isSome_ofChars?_iff {cs : List Char} : (ofChars? cs).isSome = true ↔ IsNumeral cs := by
  rw [ofChars?, Option.isSome_map, Numeral.isSome_ofChars?_iff]

end Number

end BufferLisp
