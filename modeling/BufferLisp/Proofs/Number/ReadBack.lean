import BufferLisp.Number.Format
import BufferLisp.Proofs.Number.Bits
import BufferLisp.Proofs.Number.Shortest

/-!
# Which numbers read back

The text of a number is a numeral exactly if the number is `Readable`: it is finite, and either a
whole number below 10²¹ or not whole and at least 10⁻⁴.  The numeral is then read as an equal number
(`ofChars?_chars`).  The text of any other number holds a letter (`not_isNumeral_chars`).

A whole number is written out, and what is written is its value.  Otherwise the digits are those of
the shortest decimal, whose notation is decided by the place of its point; so the bound on the number
has to be carried over to its decimal.
-/

set_option autoImplicit false

namespace BufferLisp

namespace Number

/-- The exact value of a finite double without its sign. -/
def magnitude (x : Float) : ℚ :=
  value (rank x)

/-- A finite double that is a whole number below 10²¹, or that is not whole and at least 10⁻⁴. -/
def Readable (x : Float) : Prop :=
  isFinite x = true ∧
    ((magnitude x).isInt = true ∧ magnitude x < 10 ^ 21 ∨
      (magnitude x).isInt = false ∧ 1 / 10 ^ 4 ≤ magnitude x)

instance (x : Float) : Decidable (Readable x) :=
  inferInstanceAs (Decidable (isFinite x = true ∧
    ((magnitude x).isInt = true ∧ magnitude x < 10 ^ 21 ∨
      (magnitude x).isInt = false ∧ 1 / 10 ^ 4 ≤ magnitude x)))

/-! ## Whole numbers -/

theorem value_eq_iff {r n : Nat} : value r = n ↔ units r = n * unitsPerOne := by
  have one : (unitsPerOne : ℚ) ≠ 0 := by exact_mod_cast unitsPerOne_pos.ne'
  rw [value, div_eq_iff one]
  exact_mod_cast Iff.rfl

theorem isInt_value_iff {r : Nat} : (value r).isInt = true ↔ ∃ n : Nat, value r = n := by
  have nonneg : 0 ≤ value r := div_nonneg (Nat.cast_nonneg _) (Nat.cast_nonneg _)
  constructor
  · intro whole
    have same : ((value r).num : ℚ) = value r := (Rat.den_eq_one_iff _).mp (eq_of_beq whole)
    obtain ⟨n, number⟩ := Int.eq_ofNat_of_zero_le (Rat.num_nonneg.mpr nonneg)
    refine ⟨n, ?_⟩
    rw [← same, number, Int.cast_natCast]
  · rintro ⟨n, same⟩
    rw [same]
    rfl

theorem whole?_eq_some {r n : Nat} (found : whole? r = some n) :
    value r = n ∧ n < 10 ^ 21 := by
  unfold whole? at found
  dsimp only at found
  split at found
  · next fits =>
    simp only [Bool.and_eq_true, decide_eq_true_eq] at fits
    obtain rfl := Option.some.inj found
    exact ⟨value_eq_iff.mpr (Nat.div_mul_cancel (Nat.dvd_of_mod_eq_zero fits.1)).symm, fits.2⟩
  · nomatch found

theorem whole?_of_value {r n : Nat} (same : value r = n) (small : n < 10 ^ 21) :
    whole? r = some n := by
  have exact := value_eq_iff.mp same
  have quotient : units r / unitsPerOne = n := by
    rw [exact, Nat.mul_div_cancel _ unitsPerOne_pos]
  have remainder : units r % unitsPerOne = 0 := by rw [exact, Nat.mul_mod_left]
  have fits : n < wholeLimit := small
  simp [whole?, quotient, remainder, fits]

/-- A double that is not whole is small. -/
theorem value_lt_of_not_whole {r : Nat} (fraction : ¬ ∃ n : Nat, value r = n) :
    value r < 10 ^ 16 := by
  obtain ⟨-, small, -⟩ := rank_eq_shift_add r
  obtain ⟨places, scale⟩ : ∃ places, unitsPerOne = 2 ^ places := ⟨unitPlaces, unitsPerOne_eq⟩
  have shifted : shift r < places := by
    by_contra far
    obtain ⟨k, more⟩ := Nat.exists_eq_add_of_le (Nat.le_of_not_lt far)
    refine fraction ⟨(r - shift r * binade) * 2 ^ k, value_eq_iff.mpr ?_⟩
    rw [units_eq, more, Nat.pow_add, scale, Nat.mul_comm (2 ^ places), Nat.mul_assoc]
  have bound : units r < 10 ^ 16 * unitsPerOne := by
    calc units r ≤ (r - shift r * binade) * unitsPerOne := by
          rw [scale]
          exact Nat.mul_le_mul_left _ (Nat.pow_le_pow_right (by decide) shifted.le)
      _ < 10 ^ 16 * unitsPerOne :=
          Nat.mul_lt_mul_of_pos_right (small.trans (by decide)) unitsPerOne_pos
  have one : (0 : ℚ) < unitsPerOne := by exact_mod_cast unitsPerOne_pos
  rw [value, div_lt_iff₀ one]
  exact_mod_cast bound

/-! ## Numerals of a value -/

/-- An unsigned numeral with its exact value. -/
inductive Spells : List Char → ℚ → Prop
  | whole {digits : List Char} (all : IsDigits digits) : Spells digits (ofDigitChars digits)
  | point {whole fraction : List Char} (front : IsDigits whole) (back : IsDigits fraction) :
      Spells (whole ++ '.' :: fraction)
        (ofDigitChars (whole ++ fraction) * 10 ^ (-(fraction.length : Int)))

/-- The exact value of a numeral without its sign. -/
def Numeral.magnitude (n : Numeral) : ℚ :=
  ofDigitChars (n.whole ++ n.fraction) * 10 ^ (-(n.fraction.length : Int))

/-- A numeral is taken apart into its sign and parts that make up its value. -/
theorem Spells.numeral {cs : List Char} {q : ℚ} (spells : Spells cs q) (negative : Bool) :
    ∃ n, Numeral.ofChars? (if negative then '-' :: cs else cs) = some n ∧
      n.negative = negative ∧ n.magnitude = q := by
  have signed : ∀ {cs : List Char}, IsUnsigned cs →
      Numeral.ofChars? (if negative then '-' :: cs else cs) = Numeral.unsigned? negative cs := by
    intro cs unsigned
    cases negative with
    | false => exact Numeral.ofChars?_of_unsigned unsigned
    | true => exact Numeral.ofChars?_minus cs
  cases spells with
  | whole all =>
      refine ⟨_, (signed (.inl all)).trans (Numeral.unsigned?_of_digits negative all), rfl, ?_⟩
      simp [Numeral.magnitude]
  | point front back =>
      exact ⟨_, (signed (.inr ⟨_, _, front, back, rfl⟩)).trans
        (Numeral.unsigned?_of_point negative front back), rfl, rfl⟩

/-- A numeral is read as the double nearest to its value. -/
theorem Spells.read {cs : List Char} {q : ℚ} (spells : Spells cs q) (negative : Bool)
    {multiple : Nat} {grid : Int} (same : q = multiple * 10 ^ grid) :
    ofChars? (if negative then '-' :: cs else cs) =
      some (ofRank negative (nearestRankDecimal multiple grid)) := by
  obtain ⟨n, taken, rfl, value⟩ := spells.numeral negative
  rw [ofChars?, taken, Option.map_some, Numeral.toFloat,
    nearestRankDecimal_congr (value.trans same)]

theorem spells_toDigits (n : Nat) : Spells (Nat.toDigits 10 n) n := by
  have spells := Spells.whole (isDigits_toDigits n)
  rwa [ofDigitChars_toDigits] at spells

theorem IsDigits.append {front back : List Char} (all : IsDigits front)
    (more : ∀ c ∈ back, c.isDigit = true) : IsDigits (front ++ back) := by
  refine ⟨List.append_ne_nil_of_left_ne_nil all.1 _, fun c member => ?_⟩
  rcases List.mem_append.mp member with member | member
  · exact all.2 c member
  · exact more c member

theorem isDigit_of_mem_zeros {n : Nat} {c : Char} (member : c ∈ List.replicate n '0') :
    c.isDigit = true := by
  rw [List.eq_of_mem_replicate member]
  decide

theorem isDigits_zero : IsDigits ['0'] :=
  ⟨List.cons_ne_nil _ _, fun c member => by rw [List.mem_singleton.mp member]; decide⟩

/-- Zeros between the point and the digits. -/
theorem spells_zeros_before {digits : List Char} (all : IsDigits digits) (zeros : Nat) :
    Spells (['0', '.'] ++ List.replicate zeros '0' ++ digits)
      (ofDigitChars digits * 10 ^ (-(zeros + digits.length : Int))) := by
  have back : IsDigits (List.replicate zeros '0' ++ digits) := by
    refine ⟨List.append_ne_nil_of_right_ne_nil _ all.1, fun c member => ?_⟩
    rcases List.mem_append.mp member with member | member
    · exact isDigit_of_mem_zeros member
    · exact all.2 c member
  have spells := Spells.point isDigits_zero back
  have number : ofDigitChars (['0'] ++ (List.replicate zeros '0' ++ digits)) =
      ofDigitChars digits := by
    have zero : ofDigitChars ['0'] = 0 := rfl
    rw [ofDigitChars_append, ofDigitChars_append, ofDigitChars_replicate_zero, zero]
    simp
  rw [number, List.length_append, List.length_replicate] at spells
  exact_mod_cast spells

/-- A point between two digits. -/
theorem spells_point_between {digits : List Char} (all : IsDigits digits) {front : Nat}
    (positive : 0 < front) (inside : front < digits.length) :
    Spells (digits.take front ++ '.' :: digits.drop front)
      (ofDigitChars digits * 10 ^ ((front : Int) - digits.length)) := by
  have whole : IsDigits (digits.take front) := by
    refine ⟨List.ne_nil_of_length_pos ?_, fun c member => all.2 c (List.mem_of_mem_take member)⟩
    rw [List.length_take]
    omega
  have fraction : IsDigits (digits.drop front) := by
    refine ⟨List.ne_nil_of_length_pos ?_, fun c member => all.2 c (List.mem_of_mem_drop member)⟩
    rw [List.length_drop]
    omega
  have spells := Spells.point whole fraction
  have exponent : -((digits.drop front).length : Int) = front - digits.length := by
    rw [List.length_drop]
    omega
  rwa [List.take_append_drop, exponent] at spells

/-- Zeros that fill up the places before the point. -/
theorem spells_zeros_after {digits : List Char} (all : IsDigits digits) (zeros : Nat) :
    Spells (digits ++ List.replicate zeros '0' ++ ['.', '0']) (ofDigitChars digits * 10 ^ zeros) := by
  have whole := all.append fun c (member : c ∈ List.replicate zeros '0') =>
    isDigit_of_mem_zeros member
  have spells := Spells.point whole isDigits_zero
  have zero : ofDigitChars ['0'] = 0 := rfl
  rw [ofDigitChars_append, ofDigitChars_append, ofDigitChars_replicate_zero, zero,
    List.length_replicate] at spells
  convert spells using 1
  push_cast
  simp

/-- Positional notation is a numeral with the value of the decimal. -/
theorem spells_positional {d : Decimal} (digits : IsDigits d.digits) :
    Spells (positional d) d.value := by
  unfold positional Decimal.value
  split
  · next small =>
    obtain ⟨zeros, place⟩ := Int.eq_ofNat_of_zero_le (by omega : 0 ≤ -d.point)
    have exponent : d.point - d.digits.length = -(zeros + d.digits.length : Int) := by omega
    rw [exponent, place, Int.toNat_natCast]
    exact spells_zeros_before digits zeros
  · next large =>
    obtain ⟨front, place⟩ := Int.eq_ofNat_of_zero_le (by omega : 0 ≤ d.point)
    rw [place, Int.toNat_natCast]
    dsimp only
    split
    · next inside => exact spells_point_between digits (by omega) inside
    · next beyond =>
      have exponent : (front : Int) - d.digits.length = (front - d.digits.length : Nat) := by omega
      rw [exponent, zpow_natCast]
      exact spells_zeros_after digits _

/-! ## The notation of a number -/

theorem mem_scientific (d : Decimal) : 'e' ∈ scientific d := by
  simp [scientific]

/-- The decimal of a double that is below 10⁻⁴ is not 10⁻⁴ itself, which is read as a double above
it. -/
theorem Stands.lt_leastPoint {r multiple : Nat} {grid : Int} (stands : Stands r multiple grid)
    (below : value r < 10 ^ leastPoint) : (multiple : ℚ) * 10 ^ grid < 10 ^ leastPoint := by
  refine lt_of_le_of_ne (stands.below leastPoint (by decide) below) ?_
  intro same
  have reads : nearestRankDecimal 1 leastPoint = r := by
    rw [← stands.reads]
    apply nearestRankDecimal_congr
    rw [same, Nat.cast_one, one_mul]
  have above : unitsPerOne ≤ 10 ^ 4 * units (nearestRankDecimal 1 leastPoint) := by decide +kernel
  have one : (0 : ℚ) < unitsPerOne := by exact_mod_cast unitsPerOne_pos
  rw [reads, Nat.mul_comm] at above
  have above : (unitsPerOne : ℚ) ≤ units r * 10 ^ 4 := by exact_mod_cast above
  rw [value, div_lt_iff₀ one, show leastPoint = -(4 : Nat) from rfl, zpow_neg, zpow_natCast,
    ← div_eq_inv_mul, lt_div_iff₀ (by norm_num)] at below
  exact absurd above (not_le.mpr below)

theorem rankText_of_found {r : Nat} {whole : Option Nat} (found : whole? r = whole) :
    rankText r = whole.elim (decimalText (shortest r)) (Nat.toDigits 10) := by
  rw [rankText, found]

/-- The value of a rank that has no whole number below the limit is not such a number. -/
theorem not_whole_of_none {r : Nat} (found : whole? r = none) (whole : (value r).isInt = true) :
    10 ^ 21 ≤ value r := by
  obtain ⟨n, same⟩ := isInt_value_iff.mp whole
  by_contra small
  rw [not_le, same] at small
  have small : n < 10 ^ 21 := by exact_mod_cast small
  rw [whole?_of_value same small] at found
  nomatch found

theorem rank_pos_of_none {r : Nat} (found : whole? r = none) : 0 < r := by
  apply Nat.pos_of_ne_zero
  intro zero
  rw [zero] at found
  revert found
  decide +kernel

/-- The magnitude of a double is written as a numeral if the double is readable. -/
theorem spells_rankText {r : Nat} (finite : r < infinityRank)
    (readable : (value r).isInt = true ∧ value r < 10 ^ 21 ∨
      (value r).isInt = false ∧ 1 / 10 ^ 4 ≤ value r) :
    ∃ (multiple : Nat) (grid : Int), Spells (rankText r) (multiple * 10 ^ grid) ∧
      nearestRankDecimal multiple grid = r := by
  cases found : whole? r with
  | some n =>
      obtain ⟨same, -⟩ := whole?_eq_some found
      have value : (n : ℚ) = n * 10 ^ (0 : Int) := by simp
      refine ⟨n, 0, ?_, nearestRankDecimal_of_value finite (value.symm.trans same.symm)⟩
      rw [rankText_of_found found, Option.elim_some, ← value]
      exact spells_toDigits n
  | none =>
      obtain ⟨multiple, grid, decimal, stands⟩ := shortest_spec (rank_pos_of_none found) finite
      have fraction : (value r).isInt = false ∧ 1 / 10 ^ 4 ≤ value r := by
        rcases readable with ⟨whole, small⟩ | fraction
        · exact absurd (not_whole_of_none found whole) (not_le.mpr small)
        · exact fraction
      have upper : value r < 10 ^ 16 := by
        apply value_lt_of_not_whole
        intro whole
        rw [isInt_value_iff.mpr whole] at fraction
        exact absurd fraction.1 (by decide)
      have low : leastPoint < (Decimal.ofGrid multiple grid).point := by
        rw [Decimal.lt_point_ofGrid_iff stands.positive]
        refine stands.above leastPoint (le_of_eq_of_le ?_ fraction.2)
        norm_num [leastPoint]
      have high : (Decimal.ofGrid multiple grid).point ≤ greatestPoint := by
        apply le_of_not_gt
        intro beyond
        rw [Decimal.lt_point_ofGrid_iff stands.positive] at beyond
        have bound := stands.below 16 (by decide) (by exact_mod_cast upper)
        have order : (10 : ℚ) ^ (16 : Int) < 10 ^ greatestPoint :=
          zpow_lt_zpow_right₀ (by norm_num) (by decide)
        exact absurd (beyond.trans bound) (not_le.mpr order)
      refine ⟨multiple, grid, ?_, stands.reads⟩
      rw [rankText_of_found found, Option.elim_none, decimal, decimalText, ← Decimal.value_ofGrid]
      rw [if_pos (by simp [low, high])]
      exact spells_positional (Decimal.isDigits_ofGrid stands.positive grid)

/-- The magnitude of a finite double is written with an exponent if the double is not readable. -/
theorem mem_rankText {r : Nat} (finite : r < infinityRank)
    (unreadable : ¬ ((value r).isInt = true ∧ value r < 10 ^ 21 ∨
      (value r).isInt = false ∧ 1 / 10 ^ 4 ≤ value r)) :
    'e' ∈ rankText r := by
  cases found : whole? r with
  | some n =>
      obtain ⟨same, small⟩ := whole?_eq_some found
      refine absurd (.inl ⟨isInt_value_iff.mpr ⟨n, same⟩, ?_⟩) unreadable
      rw [same]
      exact_mod_cast small
  | none =>
      obtain ⟨multiple, grid, decimal, stands⟩ := shortest_spec (rank_pos_of_none found) finite
      have outside : ¬ (leastPoint < (Decimal.ofGrid multiple grid).point ∧
          (Decimal.ofGrid multiple grid).point ≤ greatestPoint) := by
        rintro ⟨low, high⟩
        rw [Decimal.lt_point_ofGrid_iff stands.positive] at low
        cases whole : (value r).isInt with
        | true =>
            have large := stands.above 21 (by exact_mod_cast not_whole_of_none found whole)
            rw [← Decimal.lt_point_ofGrid_iff stands.positive] at large
            exact absurd high (not_le.mpr large)
        | false =>
            have small : value r < 10 ^ leastPoint := by
              by_contra large
              refine unreadable (.inr ⟨whole, le_of_eq_of_le ?_ (not_lt.mp large)⟩)
              norm_num [leastPoint]
            exact absurd low (not_le.mpr (stands.lt_leastPoint small))
      rw [rankText_of_found found, Option.elim_none, decimal, decimalText,
        if_neg (by simpa using outside)]
      exact mem_scientific _

/-! ## Texts with a sign -/

theorem chars_of_finite {x : Float} (finite : isFinite x = true) :
    chars x = if (isNegative x && rank x != 0) = true then '-' :: rankText (rank x)
      else rankText (rank x) := by
  have below : rank x < infinityRank := of_decide_eq_true finite
  have number : isNaN x = false := decide_eq_false (by omega)
  unfold chars
  dsimp only
  rw [number, if_neg (by decide), if_neg below.ne]

/-- A readable number is written as a numeral of the number, without the sign of zero. -/
theorem ofChars?_chars_eq {x : Float} (readable : Readable x) :
    ofChars? (chars x) = some (unsignedZero x) := by
  obtain ⟨finite, magnitude⟩ := readable
  obtain ⟨multiple, grid, spells, reads⟩ := spells_rankText (of_decide_eq_true finite) magnitude
  rw [chars_of_finite finite, spells.read _ rfl, reads, unsignedZero_eq]

/-- **A readable number is written as a numeral of an equal number.** -/
theorem ofChars?_chars {x : Float} (readable : Readable x) :
    ∃ y, ofChars? (chars x) = some y ∧ equal y x = true := by
  have below : rank x < infinityRank := of_decide_eq_true readable.1
  exact ⟨_, ofChars?_chars_eq readable, equal_unsignedZero below.le⟩

/-- A text with a character of another kind is no numeral. -/
theorem not_isNumeral_of_mem {c : Char} {cs : List Char} (member : c ∈ cs)
    (other : (c.isDigit || c == '.' || c == '-') = false) : ¬ IsNumeral cs := by
  intro numeral
  rcases numeral.chars c member with digit | rfl | rfl <;> simp_all

theorem chars_of_not_finite {x : Float} (infinite : isFinite x = false) :
    chars x ∈ ["NaN".toList, "Infinity".toList, "-Infinity".toList] := by
  have above : ¬ rank x < infinityRank := of_decide_eq_false infinite
  unfold chars
  dsimp only
  split
  · decide
  · next number =>
    have number : ¬ infinityRank < rank x := by simpa [isNaN] using number
    have top : rank x = infinityRank := by omega
    rw [if_pos top]
    split
    · decide
    · decide

/-- **The text of any other number is no numeral.** -/
theorem not_isNumeral_chars {x : Float} (unreadable : ¬ Readable x) : ¬ IsNumeral (chars x) := by
  cases finite : isFinite x with
  | false =>
      have letters : ∀ text ∈ ["NaN".toList, "Infinity".toList, "-Infinity".toList],
          (Numeral.ofChars? text).isSome = false := by decide
      rw [← Numeral.isSome_ofChars?_iff, letters _ (chars_of_not_finite finite)]
      decide
  | true =>
      have below : rank x < infinityRank := of_decide_eq_true finite
      have member := mem_rankText below fun readable => unreadable ⟨finite, readable⟩
      refine not_isNumeral_of_mem (c := 'e') ?_ (by decide)
      rw [chars_of_finite finite]
      split
      · exact List.mem_cons_of_mem _ member
      · exact member

/-! ## The characters of a text -/

/-- A character that occurs in the texts of numbers. -/
def InText (c : Char) : Prop :=
  c.isDigit = true ∨ c ∈ "+-.INaefinty".toList

theorem IsNumeral.inText {cs : List Char} (numeral : IsNumeral cs) : ∀ c ∈ cs, InText c := by
  intro c member
  rcases numeral.chars c member with digit | rfl | rfl
  · exact .inl digit
  · exact .inr (by decide)
  · exact .inr (by decide)

theorem Spells.isNumeral {cs : List Char} {q : ℚ} (spells : Spells cs q) : IsNumeral cs := by
  cases spells with
  | whole all => exact .inl (.inl all)
  | point front back => exact .inl (.inr ⟨_, _, front, back, rfl⟩)

theorem IsNumeral.ne_nil {cs : List Char} (numeral : IsNumeral cs) : cs ≠ [] := by
  rintro rfl
  have none : (ofChars? []).isSome = false := rfl
  exact absurd (isSome_ofChars?_iff.mpr numeral) (by rw [none]; decide)

theorem inText_scientific {d : Decimal} (digits : IsDigits d.digits) :
    ∀ c ∈ scientific d, InText c := by
  have exponent : ∀ c ∈ 'e' :: exponentText (d.point - 1), InText c := by
    intro c member
    rw [exponentText, List.mem_cons, List.mem_cons] at member
    rcases member with rfl | rfl | member
    · exact .inr (by decide)
    · right
      split <;> decide
    · exact .inl ((isDigits_toDigits _).2 c member)
  intro c member
  unfold scientific at member
  rcases List.mem_append.mp member with member | member
  · have front : c = '.' ∨ c ∈ d.digits := by
      split at member
      · next empty => exact absurd empty digits.1
      · next digit one =>
        rw [one]
        exact .inr member
      · next digit rest _ more =>
        rw [more]
        simp only [List.mem_cons] at member ⊢
        tauto
    rcases front with rfl | digit
    · exact .inr (by decide)
    · exact .inl (digits.2 c digit)
  · exact exponent c member

/-- A finite magnitude is written with characters of numbers, and with at least one. -/
theorem inText_rankText {r : Nat} (finite : r < infinityRank) :
    rankText r ≠ [] ∧ ∀ c ∈ rankText r, InText c := by
  cases found : whole? r with
  | some n =>
      have numeral : IsNumeral (rankText r) := by
        rw [rankText_of_found found]
        exact .inl (.inl (isDigits_toDigits n))
      exact ⟨numeral.ne_nil, numeral.inText⟩
  | none =>
      obtain ⟨multiple, grid, decimal, stands⟩ := shortest_spec (rank_pos_of_none found) finite
      have digits := Decimal.isDigits_ofGrid stands.positive grid
      rw [rankText_of_found found, Option.elim_none, decimal, decimalText]
      split
      · have numeral := (spells_positional digits).isNumeral
        exact ⟨numeral.ne_nil, numeral.inText⟩
      · exact ⟨List.ne_nil_of_mem (mem_scientific _), inText_scientific digits⟩

theorem inText_chars (x : Float) : chars x ≠ [] ∧ ∀ c ∈ chars x, InText c := by
  cases finite : isFinite x with
  | true =>
      obtain ⟨some, text⟩ := inText_rankText (of_decide_eq_true finite)
      rw [chars_of_finite finite]
      split
      · refine ⟨by simp, fun c member => ?_⟩
        rcases List.mem_cons.mp member with rfl | member
        · exact .inr (by decide)
        · exact text c member
      · exact ⟨some, text⟩
  | false =>
      have words : ∀ text ∈ ["NaN".toList, "Infinity".toList, "-Infinity".toList],
          text ≠ [] ∧ text.all ("+-.INaefinty".toList.contains ·) = true := by decide
      obtain ⟨some, text⟩ := words _ (chars_of_not_finite finite)
      refine ⟨some, fun c member => .inr ?_⟩
      exact List.contains_iff_mem.mp (List.all_eq_true.mp text c member)

end Number

end BufferLisp
