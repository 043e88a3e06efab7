import BufferLisp.Proofs.Number.Rounding
import Mathlib.Algebra.Order.Field.Basic
import Mathlib.Tactic.Linarith

/-!
# The nearest double is nearest

`nearestRank` finds the binade of a fraction and rounds its significand there.  What it finds can be
told without a word on how: of all doubles none is nearer to the fraction, and if another one is as
near then the one found is even (`IsNearest`, `nearestRank_isNearest`).  No two ranks have this
property (`IsNearest.unique`).  Infinity takes part with the value of the power of two behind the
greatest finite double, so a fraction is rounded to infinity if it lies at least halfway between the
two.

The values of ranks grow with the ranks (`units_strictMono`).  In the binade of the fraction and
above, they are multiples of one power of two, of which the rounded significand picks the nearest;
below that binade they are farther away than its least element.
-/

set_option autoImplicit false

namespace BufferLisp

namespace Number

/-! ## The values of ranks -/

/-- A significand in its binade; the next binade may be reached, but not entered. -/
theorem units_of_significand {m s : Nat} (full : s = 0 ∨ binade ≤ m) (small : m ≤ 2 * binade) :
    units (s * binade + m) = m * 2 ^ s := by
  have size : binade = 4503599627370496 := rfl
  rcases Nat.lt_or_eq_of_le small with inside | rfl
  · have place : shift (s * binade + m) = s := by
      simp only [shift, size] at full inside ⊢
      omega
    rw [units_eq, place, Nat.add_sub_cancel_left]
  · have place : shift (s * binade + 2 * binade) = s + 1 := by
      simp only [shift, size]
      omega
    have rest : s * binade + 2 * binade - (s + 1) * binade = binade := by
      simp only [size]
      omega
    rw [units_eq, place, rest, Nat.pow_succ]
    ring

/-- **A greater rank has a greater value.** -/
theorem units_strictMono : StrictMono units := by
  refine strictMono_nat_of_lt_succ fun r => ?_
  obtain ⟨same, small, full⟩ := rank_eq_shift_add r
  have next : units (r + 1) = (r - shift r * binade + 1) * 2 ^ shift r := by
    conv_lhs => rw [same, Nat.add_assoc]
    exact units_of_significand (full.imp_right fun full => by omega) (by omega)
  rw [next, units_eq]
  exact Nat.mul_lt_mul_of_pos_right (Nat.lt_succ_self _) (Nat.two_pow_pos _)

/-- The values from a binade on are multiples of its unit, and those below it are less than its
least element. -/
theorem units_cases (s r : Nat) :
    (∃ k, units r = k * 2 ^ s) ∨ s ≠ 0 ∧ units r < binade * 2 ^ s := by
  obtain ⟨-, small, -⟩ := rank_eq_shift_add r
  rcases Nat.lt_or_ge (shift r) s with below | above
  · refine .inr ⟨by omega, ?_⟩
    obtain ⟨d, rfl⟩ := Nat.exists_eq_add_of_lt below
    calc units r < 2 * binade * 2 ^ shift r := Nat.mul_lt_mul_of_pos_right small (Nat.two_pow_pos _)
      _ = binade * 2 ^ (shift r + 1) := by ring
      _ ≤ binade * 2 ^ (shift r + d + 1) :=
          Nat.mul_le_mul_left _ (Nat.pow_le_pow_right (by decide) (by omega))
  · left
    obtain ⟨d, more⟩ := Nat.exists_eq_add_of_le above
    refine ⟨(r - shift r * binade) * 2 ^ d, ?_⟩
    rw [units_eq, Nat.mul_assoc, ← Nat.pow_add]
    congr 2
    omega

/-! ## Rounding a quotient -/

/-- How far a multiple of the denominator is from the numerator. -/
def distance (num multiple : Nat) : Nat :=
  ((num : Int) - multiple).natAbs

theorem distance_lt_of_lt {num a b : Nat} (less : a < b) (below : b ≤ num) :
    distance num b < distance num a := by
  simp only [distance]
  omega

theorem le_of_distance_le {num a b : Nat} (less : a < b)
    (nearer : distance num b ≤ distance num a) : a ≤ num := by
  simp only [distance] at nearer
  omega

/-- A quotient is rounded by its remainder, and by the parity of its whole part if the remainder is
half of the denominator. -/
theorem roundQuotient_cases (num den : Nat) :
    roundQuotient num den = num / den ∧ 2 * (num % den) ≤ den ∧
        (2 * (num % den) = den → num / den % 2 = 0) ∨
      roundQuotient num den = num / den + 1 ∧ den ≤ 2 * (num % den) ∧
        (2 * (num % den) = den → num / den % 2 = 1) := by
  unfold roundQuotient
  dsimp only
  split_ifs <;> omega

/-- **A rounded quotient is nearest to the quotient, and even if another whole number is as
near.** -/
theorem roundQuotient_nearest (num : Nat) {den : Nat} (positive : 0 < den) (k : Nat) :
    distance num (roundQuotient num den * den) ≤ distance num (k * den) ∧
      (distance num (k * den) = distance num (roundQuotient num den * den) →
        k = roundQuotient num den ∨ roundQuotient num den % 2 = 0) := by
  have parts : num = num / den * den + num % den := (Nat.div_add_mod' num den).symm
  have less := Nat.mod_lt num positive
  have rounding := roundQuotient_cases num den
  generalize roundQuotient num den = rounded at rounding ⊢
  generalize num / den = q at parts rounding ⊢
  generalize num % den = r at parts less rounding ⊢
  have next : (q + 1) * den = q * den + den := Nat.succ_mul q den
  -- A multiple other than the two neighbours of the numerator is farther away by `j * den`.
  have steps : ∀ j : Nat, j * den = 0 → j = 0 := fun j none =>
    (Nat.mul_eq_zero.mp none).resolve_right positive.ne'
  simp only [distance]
  rcases Nat.lt_or_ge q k with above | below
  · obtain ⟨j, rfl⟩ := Nat.exists_eq_add_of_lt above
    have far : (q + j + 1) * den = q * den + den + j * den := by ring
    have step := steps j
    rw [far]
    rcases rounding with ⟨rfl, near, tie⟩ | ⟨rfl, near, tie⟩ <;> omega
  · obtain ⟨j, rfl⟩ := Nat.exists_eq_add_of_le below
    have far : (k + j) * den = k * den + j * den := by ring
    have step := steps j
    rcases rounding with ⟨rfl, near, tie⟩ | ⟨rfl, near, tie⟩ <;> omega

/-! ## Rounding in a binade -/

theorem le_roundQuotient (num den : Nat) : num / den ≤ roundQuotient num den := by
  rcases roundQuotient_cases num den with ⟨rounded, -, -⟩ | ⟨rounded, -, -⟩ <;> omega

/-- The shift that is chosen for a whole number of units is that of its binade. -/
theorem binade_of_shift (whole : Nat) :
    let s := if whole < 2 * binade then 0 else whole.log2 - 52
    whole < 2 * binade * 2 ^ s ∧ (s = 0 ∨ binade * 2 ^ s ≤ whole) := by
  have size : binade = 2 ^ 52 := rfl
  dsimp only
  split
  · next unshifted => exact ⟨by omega, .inl rfl⟩
  · next shifted =>
    have positive : whole ≠ 0 := by omega
    have least : 53 ≤ whole.log2 := (Nat.le_log2 positive).mpr (by omega)
    constructor
    · rw [size, ← Nat.pow_succ', ← Nat.pow_add,
        show 52 + 1 + (whole.log2 - 52) = whole.log2 + 1 by omega]
      exact Nat.lt_log2_self
    · right
      rw [size, ← Nat.pow_add, show 52 + (whole.log2 - 52) = whole.log2 by omega]
      exact Nat.log2_self_le positive

/-- **The significand that is rounded in the binade of a fraction makes a rank than which no rank is
nearer to the fraction, and an even one if another is as near.** -/
theorem rounded_nearest {scaled den s : Nat} (positive : 0 < den)
    (upper : scaled / den < 2 * binade * 2 ^ s) (lower : s = 0 ∨ binade * 2 ^ s ≤ scaled / den)
    (other : Nat) :
    let r := s * binade + roundQuotient scaled (den * 2 ^ s)
    distance scaled (units r * den) ≤ distance scaled (units other * den) ∧
      (distance scaled (units other * den) = distance scaled (units r * den) →
        other = r ∨ r % 2 = 0) := by
  intro r
  have unit : 0 < den * 2 ^ s := Nat.mul_pos positive (Nat.two_pow_pos s)
  have quotient : scaled / (den * 2 ^ s) = scaled / den / 2 ^ s := (Nat.div_div_eq_div_mul ..).symm
  have small : roundQuotient scaled (den * 2 ^ s) ≤ 2 * binade := by
    have rounded := roundQuotient_le scaled (den * 2 ^ s)
    have below := Nat.div_lt_of_lt_mul (Nat.mul_comm _ _ ▸ upper)
    omega
  have full : s = 0 ∨ binade ≤ roundQuotient scaled (den * 2 ^ s) := by
    refine lower.imp_right fun lower => ?_
    rw [← Nat.le_div_iff_mul_le (Nat.two_pow_pos s), ← quotient] at lower
    exact lower.trans (le_roundQuotient _ _)
  have value : units r = roundQuotient scaled (den * 2 ^ s) * 2 ^ s :=
    units_of_significand full small
  have multiple : ∀ k, k * 2 ^ s * den = k * (den * 2 ^ s) := fun k => by ring
  rw [value, multiple]
  rcases units_cases s other with ⟨k, same⟩ | ⟨shifted, below⟩
  · rw [same, multiple]
    obtain ⟨least, tie⟩ := roundQuotient_nearest scaled unit k
    refine ⟨least, fun equal => (tie equal).imp ?_ fun even => ?_⟩
    · rintro rfl
      exact units_strictMono.injective (same.trans value.symm)
    · have whole : binade % 2 = 0 := rfl
      rw [Nat.add_mod, Nat.mul_mod, whole, even]
      simp
  · -- The least significand of the binade is already nearer than anything below the binade.
    obtain ⟨least, -⟩ := roundQuotient_nearest scaled unit binade
    have inside : binade * (den * 2 ^ s) ≤ scaled := by
      rw [← multiple]
      exact Nat.mul_le_of_le_div _ _ _ (lower.resolve_left shifted)
    have outside : units other * den < binade * (den * 2 ^ s) := by
      rw [← multiple]
      exact Nat.mul_lt_mul_of_pos_right below positive
    have farther := least.trans_lt (distance_lt_of_lt outside inside)
    exact ⟨farther.le, fun same => absurd same farther.ne'⟩

/-! ## The nearest rank -/

/-- A rank is nearest to a rational number if no rank is nearer, and if it is even in case another
one is as near. -/
structure IsNearest (q : ℚ) (r : Nat) : Prop where
  number : r ≤ infinityRank
  least : ∀ other ≤ infinityRank, |q - value r| ≤ |q - value other|
  even : ∀ other ≤ infinityRank, |q - value other| = |q - value r| → other = r ∨ r % 2 = 0

theorem value_strictMono : StrictMono value := by
  intro r r' less
  have one : (0 : ℚ) < unitsPerOne := by exact_mod_cast unitsPerOne_pos
  exact div_lt_div_of_pos_right (by exact_mod_cast units_strictMono less) one

/-- **At most one rank is nearest to a number.** -/
theorem IsNearest.unique {q : ℚ} {r r' : Nat} (nearest : IsNearest q r)
    (nearest' : IsNearest q r') : r = r' := by
  have apart : ∀ {a b : Nat}, IsNearest q a → IsNearest q b → ¬ a < b := by
    intro a b first second less
    have same : |q - value a| = |q - value b| :=
      le_antisymm (first.least b second.number) (second.least a first.number)
    have even := (first.even b second.number same.symm).resolve_left less.ne'
    have even' := (second.even a first.number same).resolve_left less.ne
    -- The rank between the two is nearer than both.
    have above := value_strictMono (Nat.lt_succ_self a)
    have below := value_strictMono (by omega : a + 1 < b)
    have nearer : |q - value (a + 1)| < |q - value a| := by
      refine abs_lt.mpr ⟨?_, ?_⟩
      · linarith [neg_abs_le (q - value b)]
      · linarith [le_abs_self (q - value a)]
    exact absurd (first.least (a + 1) (less.trans_le second.number)) (not_le.mpr nearer)
  rcases Nat.lt_trichotomy r r' with less | same | less
  · exact absurd less (apart nearest nearest')
  · exact same
  · exact absurd less (apart nearest' nearest)

theorem abs_sub_value (num : Nat) {den : Nat} (positive : 0 < den) (r : Nat) :
    |(num : ℚ) / den - value r| =
      distance (num * unitsPerOne) (units r * den) / (den * unitsPerOne : Nat) := by
  have hden : (0 : ℚ) < den := by exact_mod_cast positive
  have hone : (0 : ℚ) < unitsPerOne := by exact_mod_cast unitsPerOne_pos
  rw [value, div_sub_div _ _ hden.ne' hone.ne', abs_div, Nat.cast_mul,
    abs_of_pos (mul_pos hden hone), distance, Nat.cast_natAbs]
  push_cast
  rw [mul_comm (den : ℚ) (units r)]

/-- The distances to two values are compared as numbers of units. -/
theorem abs_sub_value_le_iff (num : Nat) {den : Nat} (positive : 0 < den) (r r' : Nat) :
    |(num : ℚ) / den - value r| ≤ |(num : ℚ) / den - value r'| ↔
      distance (num * unitsPerOne) (units r * den) ≤
        distance (num * unitsPerOne) (units r' * den) := by
  have divisor : (0 : ℚ) < (den * unitsPerOne : Nat) := by
    exact_mod_cast Nat.mul_pos positive unitsPerOne_pos
  rw [abs_sub_value num positive, abs_sub_value num positive, div_le_div_iff_of_pos_right divisor,
    Nat.cast_le]

/-- **The rank that is found for a fraction is the nearest one.** -/
theorem nearestRank_isNearest (num : Nat) {den : Nat} (positive : 0 < den) :
    IsNearest (num / den) (nearestRank num den) := by
  suffices nearest : ∀ other ≤ infinityRank,
      distance (num * unitsPerOne) (units (nearestRank num den) * den) ≤
          distance (num * unitsPerOne) (units other * den) ∧
        (distance (num * unitsPerOne) (units other * den) =
            distance (num * unitsPerOne) (units (nearestRank num den) * den) →
          other = nearestRank num den ∨ nearestRank num den % 2 = 0) by
    refine ⟨Nat.min_le_right _ _, fun other number => ?_, fun other number same => ?_⟩
    · exact (abs_sub_value_le_iff num positive _ _).mpr (nearest other number).1
    · refine (nearest other number).2 (le_antisymm ?_ ?_)
      · exact (abs_sub_value_le_iff num positive _ _).mp same.le
      · exact (abs_sub_value_le_iff num positive _ _).mp same.ge
  intro other number
  obtain ⟨upper, lower⟩ := binade_of_shift (num * unitsPerOne / den)
  have nearest := rounded_nearest positive upper lower
  have order : ∀ {a b : Nat}, a < b → units a * den < units b * den := fun less =>
    Nat.mul_lt_mul_of_pos_right (units_strictMono less) positive
  rw [nearestRank]
  simp only [Nat.pow_eq]
  dsimp only at nearest
  generalize _ * binade + roundQuotient _ _ = r at nearest ⊢
  generalize num * unitsPerOne = scaled at nearest ⊢
  rcases Nat.le_total r infinityRank with finite | beyond
  · rw [Nat.min_eq_left finite]
    exact nearest other
  · rw [Nat.min_eq_right beyond]
    rcases Nat.lt_or_eq_of_le beyond with beyond | rfl
    · -- The fraction is above every rank, so the greatest one is nearer than the others.
      have inside : units infinityRank * den ≤ scaled :=
        le_of_distance_le (order beyond) (nearest infinityRank).1
      rcases Nat.lt_or_eq_of_le number with less | rfl
      · have farther := distance_lt_of_lt (order less) inside
        exact ⟨farther.le, fun same => absurd same farther.ne'⟩
      · exact ⟨le_rfl, fun _ => .inl rfl⟩
    · exact nearest other

/-- The rank that is found for a decimal is the nearest one. -/
theorem nearestRankDecimal_isNearest (c : Nat) (e : Int) :
    IsNearest (c * 10 ^ e) (nearestRankDecimal c e) := by
  rw [nearestRankDecimal_eq, decimal_eq_div]
  exact nearestRank_isNearest _ (Nat.pow_pos (by decide))

end Number

end BufferLisp
