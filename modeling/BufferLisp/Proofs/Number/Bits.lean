import BufferLisp.Number.Binary
import Mathlib

/-!
# The bits of a double

A double is made from its bits by taking them apart into sign, exponent and mantissa and putting
these together again.  Only the patterns of NaN are not kept by that; every other pattern is
(`toBits_ofBits`).  So a double made from a sign and a rank has that sign and that rank
(`rank_ofRank`, `isNegative_ofRank`), a double is that of its own sign and rank (`ofRank_rank`), and
numbers are compared by their signs and ranks (`equal_iff`).
-/

set_option autoImplicit false

namespace BufferLisp

namespace Number

open Float.Model Float.Model.UnpackedFloat

/-! ## Patterns of numbers -/

theorem toNat_unpackMantissa (b : BitVec 64) :
    (@unpackMantissa Format.binary64 b).toNat = b.toNat % 2 ^ 52 := by
  simp [unpackMantissa]

theorem toNat_unpackExponent (b : BitVec 64) :
    (@unpackExponent Format.binary64 b).toNat = b.toNat / 2 ^ 52 % 2 ^ 11 := by
  simp [unpackExponent, Nat.shiftRight_eq_div_pow]

/-- The greatest exponent leaves room for no mantissa but that of infinity. -/
theorem isNaNBits_eq_false {b : BitVec 64} (number : b.toNat % 2 ^ 63 ≤ 2047 * 2 ^ 52) :
    @isNaNBits Format.binary64 b = false := by
  apply decide_eq_false
  rintro ⟨top, nonzero⟩
  have exponent := toNat_unpackExponent b
  rw [top] at exponent
  have full : 2047 = b.toNat / 2 ^ 52 % 2 ^ 11 := exponent
  refine nonzero (BitVec.eq_of_toNat_eq ((toNat_unpackMantissa b).trans ?_))
  change b.toNat % 2 ^ 52 = 0
  omega

/-- A pattern that is not that of a NaN is kept. -/
theorem toBits_ofBits {bits : UInt64} (number : bits.toNat % 2 ^ 63 ≤ 2047 * 2 ^ 52) :
    (Float.ofBits bits).toBits = bits := by
  change UInt64.ofBitVec (UnpackedFloat.pack Format.binary64
    (UnpackedFloat.unpack Format.binary64 bits.toBitVec)) = bits
  have finite : @isNaNBits Format.binary64 bits.toBitVec = false := isNaNBits_eq_false number
  have kept := @pack_unpack Format.binary64 bits.toBitVec (by decide)
  rw [finite, if_neg (by decide)] at kept
  rw [kept]

/-! ## Sign and rank -/

theorem toNat_toBits_ofRank (negative : Bool) {r : Nat} (number : r ≤ infinityRank) :
    (ofRank negative r).toBits.toNat = (if negative then signBit else 0) + r := by
  have top : infinityRank = 2047 * 2 ^ 52 := rfl
  have sign : signBit = 2 ^ 63 := rfl
  have bits : (UInt64.ofNat ((if negative then signBit else 0) + r)).toNat =
      (if negative then signBit else 0) + r := by
    rw [UInt64.toNat_ofNat']
    cases negative <;> simp only [Bool.false_eq_true, if_true, if_false] <;> omega
  rw [ofRank, toBits_ofBits, bits]
  rw [bits]
  cases negative <;> simp only [Bool.false_eq_true, if_true, if_false] <;> omega

theorem lt_signBit {r : Nat} (number : r ≤ infinityRank) : r < signBit :=
  Nat.lt_of_le_of_lt number (by decide)

/-- The double of a sign and a rank has that rank. -/
theorem rank_ofRank (negative : Bool) {r : Nat} (number : r ≤ infinityRank) :
    rank (ofRank negative r) = r := by
  rw [rank, toNat_toBits_ofRank negative number]
  cases negative with
  | false => exact (Nat.zero_add r).symm ▸ Nat.mod_eq_of_lt (lt_signBit number)
  | true => exact (Nat.add_mod_left signBit r).trans (Nat.mod_eq_of_lt (lt_signBit number))

/-- The double of a sign and a rank has that sign. -/
theorem isNegative_ofRank (negative : Bool) {r : Nat} (number : r ≤ infinityRank) :
    isNegative (ofRank negative r) = negative := by
  have small := lt_signBit number
  rw [isNegative, toNat_toBits_ofRank negative number]
  cases negative with
  | false => simpa using small
  | true => simp

/-- A double is the double of its own sign and rank. -/
theorem ofRank_rank (x : Float) : ofRank (isNegative x) (rank x) = x := by
  have pattern : (if isNegative x = true then signBit else 0) + rank x = x.toBits.toNat := by
    have sign : signBit = 2 ^ 63 := rfl
    have small := UInt64.toNat_lt x.toBits
    simp only [isNegative, rank, decide_eq_true_eq, sign]
    split <;> omega
  rw [ofRank, pattern, UInt64.ofNat_toNat, Float.ofBits_toBits]

/-- A double, but zero without its sign. -/
def unsignedZero (x : Float) : Float :=
  if rank x = 0 then 0.0 else x

theorem unsignedZero_eq (x : Float) :
    unsignedZero x = ofRank (isNegative x && rank x != 0) (rank x) := by
  rw [unsignedZero]
  split
  · next zero =>
    rw [zero, bne_self_eq_false, Bool.and_false]
    decide +kernel
  · next nonzero =>
    rw [bne_iff_ne.mpr nonzero, Bool.and_true, ofRank_rank]

/-- Numbers are equal if they have the same rank and, unless they are zero, the same sign. -/
theorem equal_iff {x y : Float} :
    equal x y = true ↔ rank x ≤ infinityRank ∧ rank x = rank y ∧
      (isNegative x && rank x != 0) = (isNegative y && rank y != 0) := by
  simp only [equal, Bool.and_eq_true, decide_eq_true_eq, beq_iff_eq, Bool.or_eq_true, and_assoc]
  refine and_congr_right fun number => and_congr_right fun same => ?_
  rw [← same]
  by_cases zero : rank x = 0
  · simp [zero]
  · rw [bne_iff_ne.mpr zero, Bool.and_true, Bool.and_true]
    simp [zero]

/-- A number is equal to itself without the sign of zero. -/
theorem equal_unsignedZero {x : Float} (number : rank x ≤ infinityRank) :
    equal (unsignedZero x) x = true := by
  rw [unsignedZero_eq, equal_iff, rank_ofRank _ number, isNegative_ofRank _ number]
  refine ⟨number, rfl, ?_⟩
  rw [Bool.and_assoc, Bool.and_self]

end Number

end BufferLisp
