import BufferLisp.Number.Nearest
import Mathlib.Algebra.Order.Field.Power
import Mathlib.Data.Rat.Cast.Order
import Mathlib.Tactic.FieldSimp
import Mathlib.Tactic.Ring

/-!
# Rounding and exact values

The double nearest to a fraction depends on the fraction alone and not on how it is written
(`nearestRank_congr`), and a fraction that is the exact value of a finite double is rounded to that
double (`nearestRank_of_value`).  For decimals this means that `c · 10 ^ e` may be written with any
number of zeros behind `c`.  An integer below the greatest power of two that is a double is rounded
to a finite double (`two_pow_le_of_ofInt?_none`).

Exact values are rational numbers: `value r` is the value of the finite double of rank `r`.
-/

set_option autoImplicit false

namespace BufferLisp

namespace Number

/-- The exact value of the finite double of a rank. -/
def value (r : Nat) : ℚ :=
  units r / unitsPerOne

theorem units_eq (r : Nat) : units r = (r - shift r * binade) * 2 ^ shift r := rfl

theorem unitsPerOne_eq : unitsPerOne = 2 ^ unitPlaces := by
  unfold unitsPerOne
  -- The power stays as it is: no step is to compute it.
  generalize unitPlaces = places
  rfl

theorem unitsPerOne_pos : 0 < unitsPerOne := by
  rw [unitsPerOne_eq]
  exact Nat.two_pow_pos unitPlaces

/-! ## Fractions -/

/-- A multiple of the denominator is rounded to itself. -/
theorem roundQuotient_mul_self (q : Nat) {den : Nat} (positive : 0 < den) :
    roundQuotient (q * den) den = q := by
  simp [roundQuotient, Nat.mul_div_cancel q positive, positive]

/-- Rounding does not see a common factor. -/
theorem roundQuotient_mul_right (num den : Nat) {k : Nat} (positive : 0 < k) :
    roundQuotient (num * k) (den * k) = roundQuotient num den := by
  have doubled : 2 * (num % den * k) = 2 * (num % den) * k := by ring
  simp only [roundQuotient, Nat.mul_div_mul_right num den positive, Nat.mul_mod_mul_right, doubled,
    Nat.mul_lt_mul_right positive]

/-- The nearest double does not see a common factor. -/
theorem nearestRank_mul_right (num den : Nat) {k : Nat} (positive : 0 < k) :
    nearestRank (num * k) (den * k) = nearestRank num den := by
  have scaled : num * k * unitsPerOne = num * unitsPerOne * k := by ring
  have divisor : ∀ s, den * k * 2 ^ s = den * 2 ^ s * k := fun s => by ring
  simp only [nearestRank, Nat.pow_eq, scaled, Nat.mul_div_mul_right _ den positive, divisor,
    roundQuotient_mul_right _ _ positive]

/-- Equal fractions have the same nearest double. -/
theorem nearestRank_congr {a b c d : Nat} (hb : 0 < b) (hd : 0 < d)
    (same : (a : ℚ) / b = c / d) : nearestRank a b = nearestRank c d := by
  have cross : a * d = c * b := by
    have hb' : (b : ℚ) ≠ 0 := by exact_mod_cast hb.ne'
    have hd' : (d : ℚ) ≠ 0 := by exact_mod_cast hd.ne'
    rw [div_eq_div_iff hb' hd'] at same
    exact_mod_cast same
  calc nearestRank a b = nearestRank (a * d) (b * d) := (nearestRank_mul_right a b hd).symm
    _ = nearestRank (c * b) (d * b) := by rw [cross, Nat.mul_comm b d]
    _ = nearestRank c d := nearestRank_mul_right c d hb

/-! ## Exact values -/

/-- A rank is a number of binades and a significand below two binades; the significand of a rank
that is shifted fills a binade. -/
theorem rank_eq_shift_add (r : Nat) :
    r = shift r * binade + (r - shift r * binade) ∧ r - shift r * binade < 2 * binade ∧
      (shift r = 0 ∨ binade ≤ r - shift r * binade) := by
  have size : binade = 4503599627370496 := rfl
  simp only [shift, size]
  omega

/-- A significand that fills a binade has its leading bit in place 52. -/
theorem log2_mul_two_pow {m : Nat} (s : Nat) (full : binade ≤ m) (small : m < 2 * binade) :
    (m * 2 ^ s).log2 = 52 + s := by
  have size : binade = 2 ^ 52 := rfl
  have low : 2 ^ (52 + s) ≤ m * 2 ^ s := by
    rw [Nat.pow_add]
    exact Nat.mul_le_mul_right _ (size ▸ full)
  have high : m * 2 ^ s < 2 ^ (52 + s + 1) := by
    rw [Nat.pow_succ, Nat.pow_add, Nat.mul_right_comm]
    exact Nat.mul_lt_mul_of_pos_right (by omega) (Nat.two_pow_pos s)
  have positive := Nat.two_pow_pos (52 + s)
  exact (Nat.log2_eq_iff (by omega)).mpr ⟨low, high⟩

/-- The shift of a rank is the one that rounding finds for its units. -/
theorem shift_eq_of_units (r : Nat) :
    (if units r < 2 * binade then 0 else (units r).log2 - 52) = shift r := by
  obtain ⟨-, small, full⟩ := rank_eq_shift_add r
  rcases Nat.eq_zero_or_pos (shift r) with unshifted | shifted
  · have same : units r = r - shift r * binade := by
      rw [units_eq, unshifted, Nat.pow_zero, Nat.mul_one]
    rw [same, if_pos small, unshifted]
  · have full := full.resolve_left (by omega)
    have large : 2 * binade ≤ units r := by
      rw [units_eq, Nat.mul_comm 2]
      exact Nat.mul_le_mul full (Nat.le_self_pow (by omega) 2)
    rw [if_neg (by omega), units_eq, log2_mul_two_pow _ full small, Nat.add_sub_cancel_left]

/-- **The exact value of a finite double is rounded to that double.** -/
theorem nearestRank_of_units {num den r : Nat} (positive : 0 < den) (finite : r < infinityRank)
    (exact : num * unitsPerOne = units r * den) : nearestRank num den = r := by
  have whole : units r * den / den = units r := Nat.mul_div_cancel _ positive
  have significand : units r * den = (r - shift r * binade) * (den * 2 ^ shift r) := by
    rw [units_eq]
    ring
  have rounded : roundQuotient (units r * den) (den * 2 ^ shift r) = r - shift r * binade := by
    rw [significand]
    exact roundQuotient_mul_self _ (Nat.mul_pos positive (Nat.two_pow_pos _))
  simp only [nearestRank, Nat.pow_eq, exact, whole, shift_eq_of_units, rounded]
  rw [← (rank_eq_shift_add r).1, Nat.min_eq_left finite.le]

theorem nearestRank_of_value {num den r : Nat} (positive : 0 < den) (finite : r < infinityRank)
    (exact : (num : ℚ) / den = value r) : nearestRank num den = r := by
  apply nearestRank_of_units positive finite
  have hden : (den : ℚ) ≠ 0 := by exact_mod_cast positive.ne'
  have hone : (unitsPerOne : ℚ) ≠ 0 := by exact_mod_cast unitsPerOne_pos.ne'
  rw [value, div_eq_div_iff hden hone] at exact
  exact_mod_cast exact

/-! ## Decimals -/

/-- A decimal as a fraction. -/
theorem nearestRankDecimal_eq (c : Nat) (e : Int) :
    nearestRankDecimal c e = nearestRank (c * 10 ^ e.toNat) (10 ^ (-e).toNat) := by
  rw [nearestRankDecimal]
  simp only [Nat.pow_eq]
  split
  · next whole => rw [Int.toNat_of_nonpos (Int.neg_nonpos_of_nonneg whole), Nat.pow_zero]
  · next fraction => rw [Int.toNat_of_nonpos (by omega : e ≤ 0), Nat.pow_zero, Nat.mul_one]

theorem decimal_eq_div (c : Nat) (e : Int) :
    (c : ℚ) * 10 ^ e = ((c * 10 ^ e.toNat : Nat) : ℚ) / ((10 ^ (-e).toNat : Nat) : ℚ) := by
  have split : e = (e.toNat : Int) - ((-e).toNat : Int) := by omega
  push_cast
  rw [mul_div_assoc]
  congr 1
  conv_lhs => rw [split]
  rw [zpow_sub₀ (by norm_num), zpow_natCast, zpow_natCast]

/-- Equal decimals have the same nearest double. -/
theorem nearestRankDecimal_congr {c c' : Nat} {e e' : Int}
    (same : (c : ℚ) * 10 ^ e = c' * 10 ^ e') :
    nearestRankDecimal c e = nearestRankDecimal c' e' := by
  rw [nearestRankDecimal_eq, nearestRankDecimal_eq]
  refine nearestRank_congr (Nat.pow_pos (by decide)) (Nat.pow_pos (by decide)) ?_
  rw [← decimal_eq_div, ← decimal_eq_div, same]

/-- A decimal that is the exact value of a finite double is rounded to it. -/
theorem nearestRankDecimal_of_value {c r : Nat} {e : Int} (finite : r < infinityRank)
    (exact : (c : ℚ) * 10 ^ e = value r) : nearestRankDecimal c e = r := by
  rw [nearestRankDecimal_eq]
  exact nearestRank_of_value (Nat.pow_pos (by decide)) finite (decimal_eq_div c e ▸ exact)

/-! ## Integers -/

theorem roundQuotient_le (num den : Nat) : roundQuotient num den ≤ num / den + 1 := by
  unfold roundQuotient
  dsimp only
  split_ifs <;> omega

/-- The binade of the nearest double is known from the number of bits. -/
theorem nearestRank_one_le {n k : Nat} (small : n * unitsPerOne < 2 ^ (k + 53)) :
    nearestRank n 1 ≤ (k + 2) * binade := by
  have size : binade = 2 ^ 52 := rfl
  unfold nearestRank
  simp only [Nat.pow_eq, Nat.div_one, Nat.one_mul]
  generalize n * unitsPerOne = scaled at small ⊢
  refine Nat.le_trans (Nat.min_le_left _ _) ?_
  split
  · next unshifted =>
    have rounded := roundQuotient_le scaled (2 ^ 0)
    rw [Nat.pow_zero, Nat.div_one] at rounded
    rw [Nat.pow_zero, Nat.zero_mul, Nat.zero_add, Nat.add_mul]
    omega
  · next shifted =>
    have positive : scaled ≠ 0 := by omega
    have bits : scaled.log2 < k + 53 := (Nat.log2_lt positive).mpr small
    have least : 53 ≤ scaled.log2 := (Nat.le_log2 positive).mpr (by omega)
    have high : scaled < 2 ^ 53 * 2 ^ (scaled.log2 - 52) := by
      rw [← Nat.pow_add, show 53 + (scaled.log2 - 52) = scaled.log2 + 1 by omega]
      exact Nat.lt_log2_self
    have significand := Nat.div_lt_of_lt_mul (Nat.mul_comm _ _ ▸ high)
    have rounded := roundQuotient_le scaled (2 ^ (scaled.log2 - 52))
    have binades : (scaled.log2 - 52) * binade ≤ k * binade := Nat.mul_le_mul_right _ (by omega)
    rw [Nat.add_mul]
    omega

theorem mul_two_pow_lt {n a : Nat} (less : n < 2 ^ a) (b : Nat) : n * 2 ^ b < 2 ^ (a + b) := by
  rw [Nat.pow_add]
  exact Nat.mul_lt_mul_of_pos_right less (Nat.two_pow_pos b)

/-- **An integer that is no finite double is at least as great as the greatest power of two that is
one.** -/
theorem two_pow_le_of_ofInt?_none {i : Int} (none : ofInt? i = none) : 2 ^ 1023 ≤ i.natAbs := by
  by_contra less
  obtain ⟨places, scale, sum⟩ : ∃ places, unitsPerOne = 2 ^ places ∧ 1023 + places = 2044 + 53 :=
    ⟨unitPlaces, unitsPerOne_eq, rfl⟩
  have scaled := mul_two_pow_lt (Nat.lt_of_not_le less) places
  rw [← scale, sum] at scaled
  have finite : nearestRank i.natAbs 1 < infinityRank :=
    (nearestRank_one_le scaled).trans_lt (by decide)
  rw [ofInt?, if_pos finite] at none
  nomatch none

end Number

end BufferLisp
