import BufferLisp.Number.Shortest
import BufferLisp.Proofs.Number.Numeral

/-!
# The shortest decimal reads back

The decimal that is chosen for a double is a multiple of a power of ten that is rounded to the
double.  The search for a short one tests this before it stops, and the exact decimal, with which it
ends if no short one is found, is rounded to the double since it has its value.

The notation of a number depends on where the point of its decimal lies, so the position of the
decimal beside the powers of ten has to follow from that of the double.  Both lie on the same side
of each power of ten, except that the decimal of a smaller double may be the power itself
(`shortest_spec`).
-/

set_option autoImplicit false

namespace BufferLisp

namespace Number

/-! ## Digits -/

theorem ofDigitChars_append (front back : List Char) :
    ofDigitChars (front ++ back) = ofDigitChars front * 10 ^ back.length + ofDigitChars back := by
  change Nat.ofDigitChars 10 (front ++ back) 0 = _
  rw [Nat.ofDigitChars_append, Nat.ofDigitChars_eq_ofDigitChars_zero, Nat.mul_comm]
  rfl

theorem ofDigitChars_replicate_zero (n : Nat) : ofDigitChars (List.replicate n '0') = 0 := by
  change Nat.ofDigitChars 10 (List.replicate n '0') 0 = 0
  simp

theorem ofDigitChars_toDigits (n : Nat) : ofDigitChars (Nat.toDigits 10 n) = n :=
  Nat.ofDigitChars_ten_toDigits

theorem isDigits_toDigits (n : Nat) : IsDigits (Nat.toDigits 10 n) :=
  ⟨Nat.toDigits_ne_nil, fun _ member => Nat.isDigit_of_mem_toDigits (by decide) (by decide) member⟩

/-- Only zeros are dropped. -/
theorem exists_dropEndZeros_append (digits : List Char) :
    ∃ zeros, digits = dropEndZeros digits ++ List.replicate zeros '0' := by
  have parts := List.takeWhile_append_dropWhile (p := (· == '0')) (l := digits.reverse)
  have zeros : digits.reverse.takeWhile (· == '0') =
      List.replicate (digits.reverse.takeWhile (· == '0')).length '0' := by
    refine List.eq_replicate_iff.mpr ⟨rfl, fun c member => ?_⟩
    have zero := List.mem_takeWhile_imp member
    exact eq_of_beq zero
  refine ⟨(digits.reverse.takeWhile (· == '0')).length, ?_⟩
  rw [dropEndZeros, ← List.reverse_replicate, ← zeros, ← List.reverse_append, parts,
    List.reverse_reverse]

/-! ## Powers of ten

A power of ten lies on each finer grid, so there it is compared with the multiples as a natural
number. -/

theorem zpow_eq_mul {grid p : Int} (fine : grid ≤ p) :
    (10 : ℚ) ^ p = ((10 ^ (p - grid).toNat : Nat) : ℚ) * 10 ^ grid := by
  obtain ⟨k, steps⟩ := Int.eq_ofNat_of_zero_le (by omega : 0 ≤ p - grid)
  obtain rfl : p = k + grid := by omega
  rw [Int.add_sub_cancel, Int.toNat_natCast, zpow_add₀ (by norm_num), zpow_natCast]
  push_cast
  rfl

theorem zpow_le_mul_of_le {grid p : Int} {multiple : Nat} (coarse : p ≤ grid)
    (positive : 0 < multiple) : (10 : ℚ) ^ p ≤ multiple * 10 ^ grid := by
  have one : (1 : ℚ) ≤ multiple := by exact_mod_cast positive
  calc (10 : ℚ) ^ p ≤ 10 ^ grid := zpow_le_zpow_right₀ (by norm_num) coarse
    _ ≤ multiple * 10 ^ grid := le_mul_of_one_le_left (by positivity) one

theorem zpow_le_mul_iff {grid p : Int} {multiple : Nat} (fine : grid ≤ p) :
    (10 : ℚ) ^ p ≤ multiple * 10 ^ grid ↔ 10 ^ (p - grid).toNat ≤ multiple := by
  rw [zpow_eq_mul fine, mul_le_mul_iff_left₀ (by positivity), Nat.cast_le]

theorem mul_le_zpow_iff {grid p : Int} {multiple : Nat} (fine : grid ≤ p) :
    (multiple : ℚ) * 10 ^ grid ≤ 10 ^ p ↔ multiple ≤ 10 ^ (p - grid).toNat := by
  rw [zpow_eq_mul fine, mul_le_mul_iff_left₀ (by positivity), Nat.cast_le]

/-! ## Decimals -/

namespace Decimal

/-- The exact value of a decimal. -/
def value (d : Decimal) : ℚ :=
  ofDigitChars d.digits * 10 ^ (d.point - d.digits.length)

/-- The decimal of a multiple of a power of ten has its value. -/
theorem value_ofGrid (multiple : Nat) (grid : Int) :
    (ofGrid multiple grid).value = multiple * 10 ^ grid := by
  obtain ⟨zeros, digits⟩ := exists_dropEndZeros_append (Nat.toDigits 10 multiple)
  have number := ofDigitChars_toDigits multiple
  have length := congrArg List.length digits
  rw [List.length_append, List.length_replicate] at length
  rw [digits, ofDigitChars_append, ofDigitChars_replicate_zero, List.length_replicate,
    Nat.add_zero] at number
  have exponent : (ofGrid multiple grid).point - (ofGrid multiple grid).digits.length =
      zeros + grid := by
    simp only [ofGrid]
    omega
  rw [value, exponent, zpow_add₀ (by norm_num), zpow_natCast, ← mul_assoc]
  congr 1
  exact_mod_cast number

theorem isDigits_ofGrid {multiple : Nat} (positive : 0 < multiple) (grid : Int) :
    IsDigits (ofGrid multiple grid).digits := by
  obtain ⟨zeros, digits⟩ := exists_dropEndZeros_append (Nat.toDigits 10 multiple)
  refine ⟨fun empty => ?_, fun c member => ?_⟩
  · have number := ofDigitChars_toDigits multiple
    rw [digits, show dropEndZeros (Nat.toDigits 10 multiple) = [] from empty, List.nil_append,
      ofDigitChars_replicate_zero] at number
    omega
  · refine (isDigits_toDigits multiple).2 c ?_
    rw [digits]
    exact List.mem_append_left _ member

/-- The point lies behind a place exactly if the decimal is not below that power of ten. -/
theorem lt_point_ofGrid_iff {multiple : Nat} (positive : 0 < multiple) (grid p : Int) :
    p < (ofGrid multiple grid).point ↔ (10 : ℚ) ^ p ≤ multiple * 10 ^ grid := by
  have point : (ofGrid multiple grid).point = (Nat.toDigits 10 multiple).length + grid := rfl
  have some := Nat.length_toDigits_pos (b := 10) (n := multiple)
  rw [point]
  rcases le_or_gt p grid with coarse | fine
  · exact ⟨fun _ => zpow_le_mul_of_le coarse positive, fun _ => by omega⟩
  · -- The number of digits tells the powers of ten that are reached.
    have digits := Nat.length_toDigits_le_iff (b := 10) (n := multiple) (k := (p - grid).toNat)
      (by decide) (by omega)
    rw [zpow_le_mul_iff fine.le, ← not_lt, ← digits]
    omega

end Decimal

/-! ## Neighbours on a grid -/

/-- The greatest multiple of `10 ^ grid` that is not above the double. -/
def lower (r : Nat) (grid : Int) : Nat :=
  units r * (gridScale grid).1 / (gridScale grid).2

theorem gridScale_pos (grid : Int) : 0 < (gridScale grid).2 := by
  unfold gridScale
  split <;> dsimp only
  · exact Nat.mul_pos unitsPerOne_pos (Nat.pow_pos (by decide))
  · exact unitsPerOne_pos

/-- The scale turns units into multiples of `10 ^ grid`. -/
theorem scaled_eq (r : Nat) (grid : Int) :
    ((units r * (gridScale grid).1 : Nat) : ℚ) / ((gridScale grid).2 : Nat) * 10 ^ grid =
      value r := by
  have one : (unitsPerOne : ℚ) ≠ 0 := by exact_mod_cast unitsPerOne_pos.ne'
  unfold gridScale
  split
  · next whole =>
    obtain ⟨k, rfl⟩ := Int.eq_ofNat_of_zero_le whole
    rw [Int.toNat_natCast, zpow_natCast, value]
    push_cast [Nat.pow_eq]
    field_simp
  · next fraction =>
    obtain ⟨k, same⟩ := Int.eq_ofNat_of_zero_le (by omega : 0 ≤ -grid)
    obtain rfl : grid = -(k : Int) := by omega
    rw [neg_neg, Int.toNat_natCast, zpow_neg, zpow_natCast, value]
    push_cast [Nat.pow_eq]
    field_simp

/-- A double lies between its lower neighbour, included, and the next multiple. -/
theorem lower_le_value (r : Nat) (grid : Int) :
    (lower r grid : ℚ) * 10 ^ grid ≤ value r ∧ value r < (lower r grid + 1 : ℚ) * 10 ^ grid := by
  have ten : (0 : ℚ) < 10 ^ grid := by positivity
  have divisor : (0 : ℚ) < ((gridScale grid).2 : Nat) := by exact_mod_cast gridScale_pos grid
  rw [← scaled_eq r grid, mul_le_mul_iff_left₀ ten, mul_lt_mul_iff_left₀ ten, le_div_iff₀ divisor,
    div_lt_iff₀ divisor]
  have low : lower r grid * (gridScale grid).2 ≤ units r * (gridScale grid).1 :=
    Nat.div_mul_le_self _ _
  have high : units r * (gridScale grid).1 < (lower r grid + 1) * (gridScale grid).2 := by
    rw [Nat.mul_comm _ (gridScale grid).2]
    exact Nat.lt_mul_div_succ _ (gridScale_pos grid)
  exact ⟨by exact_mod_cast low, by exact_mod_cast high⟩

/-- A quotient is rounded down or up. -/
theorem roundQuotient_eq (num den : Nat) :
    roundQuotient num den = num / den ∨ roundQuotient num den = num / den + 1 := by
  unfold roundQuotient
  dsimp only
  split
  · exact .inl rfl
  · split
    · exact .inr rfl
    · split
      · exact .inl rfl
      · exact .inr rfl

/-- What stands for a double on a grid is a neighbour that reads back. -/
theorem onGrid?_spec {r multiple : Nat} {grid : Int} (found : onGrid? r grid = some multiple) :
    nearestRankDecimal multiple grid = r ∧
      (multiple = lower r grid ∨ multiple = lower r grid + 1) := by
  unfold onGrid? at found
  change (if _ then some (roundQuotient (units r * (gridScale grid).1) (gridScale grid).2)
    else if _ then some (lower r grid) else if _ then some (lower r grid + 1) else none) = _ at found
  split at found
  · next both =>
    obtain ⟨low, high⟩ := Bool.and_eq_true_iff.mp both
    obtain rfl := Option.some.inj found
    rcases roundQuotient_eq (units r * (gridScale grid).1) (gridScale grid).2 with down | up
    · rw [down]
      exact ⟨eq_of_beq low, .inl rfl⟩
    · rw [up]
      exact ⟨eq_of_beq high, .inr rfl⟩
  · split at found
    · next low =>
      obtain rfl := Option.some.inj found
      exact ⟨eq_of_beq low, .inl rfl⟩
    · split at found
      · next high =>
        obtain rfl := Option.some.inj found
        exact ⟨eq_of_beq high, .inr rfl⟩
      · nomatch found

/-! ## The shortest decimal -/

/-- A quotient below a power of ten, counted in smaller decimal places. -/
theorem div_places_lt {u one places k : Nat} {p : Int} (positive : 0 < one)
    (place : p + places = k) (below : (u : ℚ) / one < 10 ^ p) :
    u * 10 ^ places / one < 10 ^ k := by
  have positive' : (0 : ℚ) < one := by exact_mod_cast positive
  have power : (10 : ℚ) ^ p * 10 ^ places = 10 ^ k := by
    rw [← zpow_natCast, ← zpow_natCast, ← place, zpow_add₀ (by norm_num)]
  rw [Nat.div_lt_iff_lt_mul positive]
  rw [div_lt_iff₀ positive'] at below
  have wide : (u : ℚ) * 10 ^ places < 10 ^ k * one := by
    calc (u : ℚ) * 10 ^ places < 10 ^ p * one * 10 ^ places :=
          mul_lt_mul_of_pos_right below (pow_pos (by norm_num) places)
      _ = 10 ^ k * one := by rw [mul_right_comm, power]
  exact_mod_cast wide

/-- The digits of a double below a power of ten start behind that place at most. -/
theorem pointOf_le {r : Nat} {p : Int} (least : -(firstPlace : Int) < p)
    (below : value r < 10 ^ p) : pointOf r ≤ p := by
  unfold pointOf
  generalize firstPlace = places at least ⊢
  obtain ⟨k, place⟩ := Int.eq_ofNat_of_zero_le (by omega : 0 ≤ p + places)
  have short := (Nat.length_toDigits_le_iff (b := 10) (by decide) (by omega : 0 < k)).mpr
    (div_places_lt unitsPerOne_pos place below)
  exact sub_le_iff_le_add.mpr ((Int.ofNat_le.mpr short).trans_eq place.symm)

/-- What the decimal of a double has to be: a multiple of a power of ten that reads back, and that
lies on the same side of each power of ten as the double does, or on the power. -/
structure Stands (r : Nat) (multiple : Nat) (grid : Int) : Prop where
  positive : 0 < multiple
  reads : nearestRankDecimal multiple grid = r
  above : ∀ p : Int, (10 : ℚ) ^ p ≤ value r → (10 : ℚ) ^ p ≤ multiple * 10 ^ grid
  below : ∀ p : Int, -(firstPlace : Int) < p → value r < (10 : ℚ) ^ p →
    (multiple : ℚ) * 10 ^ grid ≤ 10 ^ p

/-- Zero is rounded to zero. -/
theorem nearestRankDecimal_zero (grid : Int) : nearestRankDecimal 0 grid = 0 := by
  have none : units 0 = 0 := by decide
  refine nearestRankDecimal_of_value (by decide) ?_
  rw [value, none, Nat.cast_zero, zero_mul, zero_div]

/-- A neighbour that reads back stands for the double, on every grid that is fine enough. -/
theorem stands_of_onGrid? {r n multiple : Nat} (nonzero : 0 < r) (fine : 1 ≤ n)
    (found : onGrid? r (pointOf r - n) = some multiple) :
    Stands r multiple (pointOf r - n) := by
  obtain ⟨reads, neighbour⟩ := onGrid?_spec found
  obtain ⟨low, high⟩ := lower_le_value r (pointOf r - n)
  have positive : 0 < multiple := by
    apply Nat.pos_of_ne_zero
    intro zero
    rw [zero, nearestRankDecimal_zero] at reads
    omega
  refine ⟨positive, reads, fun p reached => ?_, fun p least under => ?_⟩
  · rcases le_or_gt p (pointOf r - n) with coarse | fine
    · exact zpow_le_mul_of_le coarse positive
    · have above := not_le.mpr (reached.trans_lt high)
      rw [← Nat.cast_add_one, mul_le_zpow_iff fine.le] at above
      rw [zpow_le_mul_iff fine.le]
      omega
  · have point := pointOf_le least under
    have below := not_le.mpr (low.trans_lt under)
    rw [zpow_le_mul_iff (by omega)] at below
    rw [mul_le_zpow_iff (by omega)]
    omega

theorem units_pos {r : Nat} (nonzero : 0 < r) : 0 < units r := by
  obtain ⟨same, -, full⟩ := rank_eq_shift_add r
  have size : 0 < binade := Nat.two_pow_pos 52
  refine Nat.mul_pos ?_ (Nat.two_pow_pos _)
  rcases full with unshifted | full
  · rw [unshifted, Nat.zero_mul]
    exact nonzero
  · omega

/-- A fraction over a power of two, as a decimal. -/
theorem mul_five_pow (u n : Nat) :
    ((u * Nat.pow 5 n : Nat) : ℚ) * 10 ^ (-(n : Int)) = (u : ℚ) / (2 ^ n : Nat) := by
  have ten : (10 : ℚ) ^ n = 2 ^ n * 5 ^ n := by
    rw [← mul_pow]
    norm_num
  rw [zpow_neg, zpow_natCast, ten]
  push_cast [Nat.pow_eq]
  field_simp

/-- A decimal of the exact value stands for the double. -/
theorem stands_of_value {r multiple : Nat} {grid : Int} (positive : 0 < multiple)
    (finite : r < infinityRank) (same : (multiple : ℚ) * 10 ^ grid = value r) :
    Stands r multiple grid := by
  refine ⟨positive, nearestRankDecimal_of_value finite same, fun p reached => ?_, fun p _ under => ?_⟩
  · rwa [same]
  · rw [same]
    exact under.le

theorem stands_exact {r : Nat} (nonzero : 0 < r) (finite : r < infinityRank) :
    ∃ multiple grid, exactDecimal r = .ofGrid multiple grid ∧ Stands r multiple grid := by
  have scale := unitsPerOne_eq
  unfold exactDecimal
  generalize unitPlaces = places at scale ⊢
  refine ⟨_, _, rfl, stands_of_value ?_ finite ?_⟩
  · exact Nat.mul_pos (units_pos nonzero) (Nat.pow_pos (by decide))
  · rw [value, scale]
    exact mul_five_pow (units r) places

theorem shortestFrom_spec {r : Nat} (nonzero : 0 < r) (finite : r < infinityRank) (tries n : Nat)
    (fine : 1 ≤ n) :
    ∃ multiple grid, shortestFrom r (pointOf r) tries n = .ofGrid multiple grid ∧
      Stands r multiple grid := by
  induction tries generalizing n with
  | zero =>
      rw [shortestFrom]
      exact stands_exact nonzero finite
  | succ tries ih =>
      rw [shortestFrom]
      cases found : onGrid? r (pointOf r - n) with
      | none => exact ih (n + 1) (by omega)
      | some multiple => exact ⟨multiple, _, rfl, stands_of_onGrid? nonzero fine found⟩

/-- **The shortest decimal stands for its double.** -/
theorem shortest_spec {r : Nat} (nonzero : 0 < r) (finite : r < infinityRank) :
    ∃ multiple grid, shortest r = .ofGrid multiple grid ∧ Stands r multiple grid :=
  shortestFrom_spec nonzero finite 17 1 (by decide)

end Number

end BufferLisp
