import BufferLisp.Proofs.Number.Nearest
import BufferLisp.Proofs.Value.RoundTrip

/-!
# The text of a number determines the number

The text of a finite number is a decimal numeral, perhaps with an exponent (`Scientific`), and the
number is the one double that is nearest to this numeral (`scientific_chars`).  So two numbers with
the same text are equal, whichever notation the text is in: an infinite number is written as a word,
and no word is a decimal numeral.  The reader of expressions knows no exponents.  It takes the text
of a `Readable` number as that number and the text of any other one as a symbol.

The sign of zero is not written, so zero comes back without it (`unsignedZero`).
-/

set_option autoImplicit false

namespace BufferLisp

namespace Number

/-! ## Numerals with an exponent -/

/-- The exponent that a sign and one or more digits stand for. -/
def exponentOf? : List Char → Option Int
  | [] => none
  | sign :: digits =>
    if digits.isEmpty || !digits.all Char.isDigit then none
    else if sign = '+' then some (ofDigitChars digits)
    else if sign = '-' then some (-ofDigitChars digits)
    else none

/-- A numeral times a power of ten. -/
structure Scientific where
  mantissa : Numeral
  exponent : Int
  deriving Repr, DecidableEq

namespace Scientific

/-- The numeral that the characters are, all of them taken together: a mantissa, and optionally an
`e` and an exponent. -/
def ofChars? (cs : List Char) : Option Scientific :=
  let front := cs.takeWhile (· != 'e')
  match cs.dropWhile (· != 'e') with
  | [] => (Numeral.ofChars? front).map (⟨·, 0⟩)
  | _ :: back =>
    match Numeral.ofChars? front, exponentOf? back with
    | some mantissa, some exponent => some ⟨mantissa, exponent⟩
    | _, _ => none

/-- The exact value of a numeral without its sign. -/
def magnitude (n : Scientific) : ℚ :=
  n.mantissa.magnitude * 10 ^ n.exponent

/-- The double of a numeral: it has the sign of the numeral and is nearest to it. -/
structure RoundsTo (n : Scientific) (x : Float) : Prop where
  sign : isNegative x = n.mantissa.negative
  nearest : IsNearest n.magnitude (rank x)

theorem exponentOf?_exponentText (e : Int) : exponentOf? (exponentText e) = some e := by
  obtain ⟨nonempty, digits⟩ := isDigits_toDigits e.natAbs
  have proper : ((Nat.toDigits 10 e.natAbs).isEmpty ||
      !(Nat.toDigits 10 e.natAbs).all Char.isDigit) = false := by
    simp [nonempty, List.all_eq_true.mpr digits]
  rw [exponentText, exponentOf?, proper, ofDigitChars_toDigits, if_neg (by decide)]
  split
  · next negative =>
    rw [if_neg (by decide), if_pos rfl]
    congr 1
    omega
  · next nonnegative =>
    rw [if_pos rfl]
    congr 1
    omega

theorem ne_e_of_isNumeral {cs : List Char} (numeral : IsNumeral cs) :
    ∀ c ∈ cs, (c != 'e') = true := by
  intro c member
  rcases numeral.chars c member with digit | rfl | rfl
  · rw [bne_iff_ne]
    rintro rfl
    exact absurd digit (by decide)
  · rfl
  · rfl

/-- A numeral of its own has the exponent zero. -/
theorem ofChars?_of_isNumeral {cs : List Char} (numeral : IsNumeral cs) :
    ofChars? cs = (Numeral.ofChars? cs).map (⟨·, 0⟩) := by
  have plain := ne_e_of_isNumeral numeral
  have front : cs.takeWhile (· != 'e') = cs := List.takeWhile_eq_self_iff.mpr plain
  have back : cs.dropWhile (· != 'e') = [] := List.dropWhile_eq_nil_iff.mpr plain
  simp only [ofChars?, front, back]

/-- A numeral with the text of an exponent behind it has this exponent. -/
theorem ofChars?_of_exponentText {cs : List Char} (numeral : IsNumeral cs) (e : Int) :
    ofChars? (cs ++ 'e' :: exponentText e) = (Numeral.ofChars? cs).map (⟨·, e⟩) := by
  have plain := ne_e_of_isNumeral numeral
  have front : (cs ++ 'e' :: exponentText e).takeWhile (· != 'e') = cs := by
    rw [List.takeWhile_append_of_pos plain, List.takeWhile_cons_of_neg (by decide), List.append_nil]
  have back : (cs ++ 'e' :: exponentText e).dropWhile (· != 'e') = 'e' :: exponentText e := by
    rw [List.dropWhile_append_of_pos plain, List.dropWhile_cons_of_neg (by decide)]
  simp only [ofChars?, front, back, exponentOf?_exponentText]
  cases Numeral.ofChars? cs <;> rfl

example : ofChars? "-1.5e-7".toList = some ⟨⟨true, ['1'], ['5']⟩, -7⟩ := by decide

end Scientific

/-! ## Texts of magnitudes -/

/-- An unsigned numeral, perhaps with an exponent, with its exact value. -/
inductive Notates : List Char → ℚ → Prop
  | plain {cs : List Char} {q : ℚ} (spells : Spells cs q) : Notates cs q
  | exponent {cs : List Char} {q : ℚ} (spells : Spells cs q) (e : Int) :
      Notates (cs ++ 'e' :: exponentText e) (q * 10 ^ e)

/-- Notation is taken apart into its sign and parts that make up its value. -/
theorem Notates.scientific {cs : List Char} {q : ℚ} (notates : Notates cs q) (negative : Bool) :
    ∃ n, Scientific.ofChars? (if negative then '-' :: cs else cs) = some n ∧
      n.mantissa.negative = negative ∧ n.magnitude = q := by
  cases notates with
  | plain spells =>
      obtain ⟨mantissa, taken, sign, value⟩ := spells.numeral negative
      have numeral := Numeral.isSome_ofChars?_iff.mp (Option.isSome_of_eq_some taken)
      refine ⟨⟨mantissa, 0⟩, ?_, sign, ?_⟩
      · rw [Scientific.ofChars?_of_isNumeral numeral, taken, Option.map_some]
      · rw [Scientific.magnitude, value, zpow_zero, mul_one]
  | @exponent cs q spells e =>
      obtain ⟨mantissa, taken, sign, value⟩ := spells.numeral negative
      have numeral := Numeral.isSome_ofChars?_iff.mp (Option.isSome_of_eq_some taken)
      have signed : (if negative = true then '-' :: (cs ++ 'e' :: exponentText e)
          else cs ++ 'e' :: exponentText e) =
          (if negative = true then '-' :: cs else cs) ++ 'e' :: exponentText e := by
        cases negative <;> rfl
      refine ⟨⟨mantissa, e⟩, ?_, sign, ?_⟩
      · rw [signed, Scientific.ofChars?_of_exponentText numeral, taken, Option.map_some]
      · rw [Scientific.magnitude, value]

/-- A decimal is written in scientific notation with its exact value. -/
theorem notates_scientific {d : Decimal} (digits : IsDigits d.digits) :
    Notates (scientific d) d.value := by
  unfold scientific Decimal.value
  split
  · next empty => exact absurd empty digits.1
  · next digit one =>
    rw [one] at digits ⊢
    exact .exponent (.whole digits) (d.point - 1)
  · next digit rest more many =>
    rw [many] at digits ⊢
    have front : IsDigits [digit] := by
      refine ⟨List.cons_ne_nil _ _, fun c member => digits.2 c ?_⟩
      rw [List.mem_singleton.mp member]
      exact List.mem_cons_self
    have back : IsDigits rest :=
      ⟨more, fun c member => digits.2 c (List.mem_cons_of_mem digit member)⟩
    have notates := Notates.exponent (.point front back) (d.point - 1)
    have places : -(rest.length : Int) + (d.point - 1) = d.point - (digit :: rest).length := by
      rw [List.length_cons]
      omega
    rw [mul_assoc, ← zpow_add₀ (by norm_num), places] at notates
    exact notates

/-- **The text of a finite magnitude is a numeral to which this magnitude is nearest.** -/
theorem notates_rankText {r : Nat} (finite : r < infinityRank) :
    ∃ q, Notates (rankText r) q ∧ IsNearest q r := by
  cases found : whole? r with
  | some n =>
      obtain ⟨same, -⟩ := whole?_eq_some found
      have value : (n : ℚ) * 10 ^ (0 : Int) = n := by simp
      refine ⟨n, ?_, ?_⟩
      · rw [rankText_of_found found]
        exact .plain (spells_toDigits n)
      · rw [← value, ← nearestRankDecimal_of_value finite (value.trans same.symm)]
        exact nearestRankDecimal_isNearest n 0
  | none =>
      obtain ⟨multiple, grid, decimal, stands⟩ := shortest_spec (rank_pos_of_none found) finite
      have digits := Decimal.isDigits_ofGrid stands.positive grid
      refine ⟨multiple * 10 ^ grid, ?_, ?_⟩
      · rw [rankText_of_found found, Option.elim_none, decimal, decimalText, ← Decimal.value_ofGrid]
        split
        · exact .plain (spells_positional digits)
        · exact notates_scientific digits
      · rw [← stands.reads]
        exact nearestRankDecimal_isNearest multiple grid

/-! ## Texts of numbers -/

/-- **The text of a finite number is a decimal numeral, and the number is the one double that is
nearest to it.** -/
theorem scientific_chars {x : Float} (finite : isFinite x = true) :
    ∃ n, Scientific.ofChars? (chars x) = some n ∧ ∀ y, n.RoundsTo y ↔ y = unsignedZero x := by
  have below : rank x < infinityRank := of_decide_eq_true finite
  obtain ⟨q, notates, nearest⟩ := notates_rankText below
  obtain ⟨n, taken, sign, rfl⟩ := notates.scientific (isNegative x && rank x != 0)
  refine ⟨n, chars_of_finite finite ▸ taken, fun y => ?_⟩
  rw [unsignedZero_eq]
  constructor
  · intro rounds
    rw [← sign, ← rounds.sign, nearest.unique rounds.nearest, ofRank_rank]
  · rintro rfl
    refine ⟨?_, ?_⟩
    · rw [isNegative_ofRank _ below.le, sign]
    · rwa [rank_ofRank _ below.le]

/-- The characters of the texts of infinities. -/
theorem chars_of_infinite {x : Float} (infinite : rank x = infinityRank) :
    chars x = if (isNegative x && rank x != 0) = true then '-' :: "Infinity".toList
      else "Infinity".toList := by
  have number : isNaN x = false := decide_eq_false (by omega)
  unfold chars
  dsimp only
  rw [number, if_neg (by decide), if_pos infinite]

/-- No word is a numeral. -/
theorem ofChars?_of_not_finite {x : Float} (infinite : isFinite x = false) :
    Scientific.ofChars? (chars x) = none := by
  have words : ∀ text ∈ ["NaN".toList, "Infinity".toList, "-Infinity".toList],
      Scientific.ofChars? text = none := by decide
  exact words _ (chars_of_not_finite infinite)

/-- Equal numbers have the same text. -/
theorem chars_eq_of_equal {x y : Float} (same : equal x y = true) : chars x = chars y := by
  obtain ⟨-, ranks, signs⟩ := equal_iff.mp same
  unfold chars
  dsimp only
  rw [signs, isNaN, isNaN, ranks]

/-- **Numbers with the same text are equal.** -/
theorem equal_of_chars_eq {x y : Float} (number : isNaN x = false) (number' : isNaN y = false)
    (same : chars x = chars y) : equal x y = true := by
  have bound : rank x ≤ infinityRank := not_lt.mp (of_decide_eq_false number)
  have bound' : rank y ≤ infinityRank := not_lt.mp (of_decide_eq_false number')
  cases finite : isFinite x <;> cases finite' : isFinite y
  case true.true =>
    obtain ⟨n, taken, rounds⟩ := scientific_chars finite
    obtain ⟨n', taken', rounds'⟩ := scientific_chars finite'
    obtain rfl : n = n' := Option.some.inj (taken.symm.trans (same ▸ taken'))
    have double : ofRank _ _ = ofRank _ _ :=
      unsignedZero_eq x ▸ unsignedZero_eq y ▸ (rounds' _).mp ((rounds _).mpr rfl)
    refine equal_iff.mpr ⟨bound, ?_, ?_⟩
    · exact (rank_ofRank _ bound).symm.trans ((congrArg rank double).trans (rank_ofRank _ bound'))
    · exact (isNegative_ofRank _ bound).symm.trans
        ((congrArg isNegative double).trans (isNegative_ofRank _ bound'))
  case true.false =>
    obtain ⟨n, taken, -⟩ := scientific_chars finite
    rw [same, ofChars?_of_not_finite finite'] at taken
    nomatch taken
  case false.true =>
    obtain ⟨n, taken, -⟩ := scientific_chars finite'
    rw [← same, ofChars?_of_not_finite finite] at taken
    nomatch taken
  case false.false =>
    have top : rank x = infinityRank := le_antisymm bound (not_lt.mp (of_decide_eq_false finite))
    have top' : rank y = infinityRank := le_antisymm bound' (not_lt.mp (of_decide_eq_false finite'))
    refine equal_iff.mpr ⟨bound, top.trans top'.symm, ?_⟩
    rw [chars_of_infinite top, chars_of_infinite top'] at same
    generalize (isNegative x && rank x != 0) = sign at same ⊢
    generalize (isNegative y && rank y != 0) = sign' at same ⊢
    revert same sign sign'
    decide

/-! ## Reading texts -/

/-- The text of a number is read as one atom. -/
theorem read_format (x : Float) : read (format x) = .ok (Token.atomValue (chars x)) := by
  have text : (format x).toList = chars x ++ [] := by
    rw [format, String.toList_ofList, List.append_nil]
  have ends : Token.EndsAtom [] := by simp [Token.EndsAtom]
  exact read_of_reads (text ▸ reads_number x ends)

/-- The text of a number is no other word. -/
theorem chars_ne {x : Float} {word : List Char} (noNumeral : Scientific.ofChars? word = none)
    (other : word ∉ ["NaN".toList, "Infinity".toList, "-Infinity".toList]) : chars x ≠ word := by
  rintro rfl
  cases finite : isFinite x with
  | false => exact other (chars_of_not_finite finite)
  | true =>
      obtain ⟨n, taken, -⟩ := scientific_chars finite
      rw [noNumeral] at taken
      nomatch taken

theorem atomValue_of_unreadable {x : Float} (unreadable : ¬ Readable x) :
    Token.atomValue (chars x) = .sym (format x) := by
  rw [Token.atomValue, if_neg (chars_ne (by decide) (by decide)),
    if_neg (chars_ne (by decide) (by decide)),
    Token.ofChars?_eq_none (not_isNumeral_chars unreadable), format]

/-! ## Whole numbers -/

/-- The exact value of a finite double. -/
def exactValue (x : Float) : ℚ :=
  if isNegative x then -magnitude x else magnitude x

theorem value_eq_zero_iff {r : Nat} : value r = 0 ↔ r = 0 := by
  have zero : value 0 = 0 := by
    rw [value, show units 0 = 0 from rfl, Nat.cast_zero, zero_div]
  rw [← zero, value_strictMono.injective.eq_iff]

/-- A double that is an integer has its magnitude, and its sign is written if the integer is
negative. -/
theorem sign_of_exactValue {x : Float} {i : Int} (whole : exactValue x = i) :
    magnitude x = i.natAbs ∧ (isNegative x && rank x != 0) = decide (i < 0) := by
  have nonneg : 0 ≤ magnitude x := div_nonneg (Nat.cast_nonneg _) (Nat.cast_nonneg _)
  unfold exactValue at whole
  rw [Nat.cast_natAbs]
  split at whole
  · next negative =>
    have same : magnitude x = ((-i : Int) : ℚ) := by
      rw [Int.cast_neg, ← whole, neg_neg]
    have sign : i ≤ 0 := by
      have least : 0 ≤ -i := by exact_mod_cast same ▸ nonneg
      omega
    refine ⟨by rw [same, abs_of_nonpos sign], ?_⟩
    have zero : rank x = 0 ↔ i = 0 := by
      rw [← value_eq_zero_iff, show value (rank x) = _ from same, Int.cast_eq_zero, neg_eq_zero]
    rw [negative, Bool.true_and, Bool.eq_iff_iff, bne_iff_ne, decide_eq_true_eq, Ne, zero]
    omega
  · next positive =>
    have sign : 0 ≤ i := by
      rw [whole] at nonneg
      exact_mod_cast nonneg
    refine ⟨by rw [whole, abs_of_nonneg sign], ?_⟩
    rw [Bool.eq_false_iff.mpr positive, Bool.false_and, decide_eq_false (not_lt.mpr sign)]

/-- **A whole number below the limit is written out exactly.** -/
theorem format_of_exactValue {x : Float} {i : Int} (finite : isFinite x = true)
    (whole : exactValue x = i) (small : i.natAbs < 10 ^ 21) : format x = toString i := by
  obtain ⟨magnitude, sign⟩ := sign_of_exactValue whole
  have text : rankText (rank x) = Nat.toDigits 10 i.natAbs :=
    rankText_of_found (whole?_of_value magnitude small)
  rw [format, chars_of_finite finite, sign, text, Int.toString_eq_repr]
  cases i with
  | ofNat n => exact Nat.repr_eq_ofList_toDigits.symm
  | negSucc n =>
      have minus : String.singleton '-' = "-" := by decide
      rw [if_pos (decide_eq_true (Int.negSucc_lt_zero n)), Int.natAbs_negSucc, String.ofList_cons,
        ← Nat.repr_eq_ofList_toDigits, minus]
      rfl

/-! ## What a text tells -/

/-- **The text of a number determines the number.**  The text of a finite number is a decimal
numeral, and the one double that is nearest to this numeral is the number.  Two numbers have the
same text exactly if they are equal.  The text is read as the number if it is readable and as a
symbol otherwise, and the text of a whole number below 10²¹ is that whole number in decimal. -/
theorem format_determines (x : Float) :
    (isFinite x = true → ∃ n, Scientific.ofChars? (format x).toList = some n ∧
      ∀ y, n.RoundsTo y ↔ y = unsignedZero x) ∧
    (isNaN x = false → ∀ y, isNaN y = false → (format x = format y ↔ equal x y = true)) ∧
    read (format x) = .ok (if Readable x then .num (unsignedZero x) else .sym (format x)) ∧
    ∀ i : Int, isFinite x = true → exactValue x = i → i.natAbs < 10 ^ 21 →
      format x = toString i := by
  refine ⟨fun finite => ?_, fun number y number' => ?_, ?_, fun i => format_of_exactValue⟩
  · rw [format, String.toList_ofList]
    exact scientific_chars finite
  · rw [format, format, String.ofList_inj]
    exact ⟨equal_of_chars_eq number number', chars_eq_of_equal⟩
  · rw [read_format]
    split
    · next readable => rw [Token.atomValue_of_numeral (ofChars?_chars_eq readable)]
    · next unreadable => rw [atomValue_of_unreadable unreadable]

/-- A number that is written with an exponent, and a whole one. -/
theorem format_determines_small_whole :
    (∃ n, Scientific.ofChars? "-1.5e-7".toList = some n ∧ ∀ y, n.RoundsTo y ↔ y = -1.5e-7) ∧
    read "-1.5e-7" = .ok (.sym "-1.5e-7") ∧ format (-1.5e-7) ≠ format (-1.5e-8) ∧
    read "-12" = .ok (.num (-12.0)) ∧ format (-12.0) = toString (-12 : Int) := by
  obtain ⟨numeral, texts, reading, -⟩ := format_determines (-1.5e-7)
  obtain ⟨-, -, reading', whole⟩ := format_determines (-12.0)
  have text : format (-1.5e-7) = "-1.5e-7" := by decide +kernel
  have text' : format (-12.0) = "-12" := by decide +kernel
  have same : unsignedZero (-1.5e-7) = -1.5e-7 := by decide +kernel
  have same' : unsignedZero (-12.0) = -12.0 := by decide +kernel
  refine ⟨?_, ?_, ?_, ?_, whole (-12) (by decide +kernel) (by decide +kernel) (by decide)⟩
  · rw [← text]
    have numeral := numeral (by decide +kernel)
    rwa [same] at numeral
  · rw [if_neg (by decide +kernel), text] at reading
    exact reading
  · rw [Ne, texts (by decide +kernel) (-1.5e-8) (by decide +kernel)]
    decide +kernel
  · rw [if_pos (by decide +kernel), text', same'] at reading'
    exact reading'

end Number

end BufferLisp
