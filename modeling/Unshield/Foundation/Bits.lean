/-
Module: Unshield.Foundation.Bits
Purpose: Masks and shift-or chains of fixed-width words read as arithmetic on their numbers.
Trusted boundary: none
Main exports: Bits.and_mask, Bits.uint16_and_mask_eq_iff, Bits.uint32_shiftLeft_or,
  Bits.uint32_or_bytes, Bits.uint16_or_one,
  Bits.toInt64_toInt_of_lt, Bits.toInt32_toInt_le, Bits.uint32_toNat_ofInt, Bits.forall_uint8
-/
import Mathlib.Data.Nat.Bitwise

namespace Bits

/-- A mask of `width` ones above `shift` zeros keeps the middle digits of a number. -/
theorem and_mask (n width shift : Nat) :
    n &&& (2 ^ width - 1) * 2 ^ shift = n / 2 ^ shift % 2 ^ width * 2 ^ shift := by
  have upper : (n &&& (2 ^ width - 1) * 2 ^ shift) / 2 ^ shift = n / 2 ^ shift % 2 ^ width := by
    rw [Nat.and_div_two_pow, Nat.mul_div_cancel _ (Nat.two_pow_pos _), Nat.and_two_pow_sub_one_eq_mod]
  have lower : (n &&& (2 ^ width - 1) * 2 ^ shift) % 2 ^ shift = 0 := by
    rw [Nat.and_mod_two_pow, Nat.mul_mod_left, Nat.and_zero]
  have split := Nat.div_add_mod (n &&& (2 ^ width - 1) * 2 ^ shift) (2 ^ shift)
  rw [upper, lower, Nat.add_zero, Nat.mul_comm] at split
  exact split.symm

/-- A test of the high bits of a 16-bit word is a test of its number's quotient. -/
theorem uint16_and_mask_eq_iff {u mask value : UInt16} (shift quotient : Nat) (le : shift ≤ 16)
    (maskEq : mask.toNat = (2 ^ (16 - shift) - 1) * 2 ^ shift)
    (valueEq : value.toNat = quotient * 2 ^ shift) :
    u &&& mask = value ↔ u.toNat / 2 ^ shift = quotient := by
  have bound : u.toNat / 2 ^ shift < 2 ^ (16 - shift) := by
    rw [Nat.div_lt_iff_lt_mul (Nat.two_pow_pos _), ← pow_add, Nat.sub_add_cancel le]
    exact u.toNat_lt
  rw [← UInt16.toNat_inj, UInt16.toNat_and, maskEq, valueEq, and_mask, Nat.mod_eq_of_lt bound]
  exact Nat.mul_left_inj (Nat.two_pow_pos _).ne'

/-- Shifting a word left and filling the gap appends digits. -/
theorem uint32_shiftLeft_or (high low : UInt32) (shift : Nat) (lt : shift < 32)
    (highLt : high.toNat < 2 ^ (32 - shift)) (lowLt : low.toNat < 2 ^ shift) :
    ((high <<< UInt32.ofNat shift) ||| low).toNat = high.toNat * 2 ^ shift + low.toNat := by
  have fits : high.toNat * 2 ^ shift < 2 ^ 32 := by
    calc high.toNat * 2 ^ shift < 2 ^ (32 - shift) * 2 ^ shift :=
          Nat.mul_lt_mul_of_pos_right highLt (Nat.two_pow_pos _)
      _ = 2 ^ 32 := by rw [← pow_add, Nat.sub_add_cancel (by omega)]
  have shiftEq : (UInt32.ofNat shift).toNat % 32 = shift := by
    simp only [UInt32.toNat_ofNat', Nat.reducePow]
    omega
  rw [UInt32.toNat_or, UInt32.toNat_shiftLeft, shiftEq, Nat.shiftLeft_eq, Nat.mod_eq_of_lt fits,
    ← Nat.shiftLeft_eq, ← Nat.shiftLeft_add_eq_or_of_lt lowLt]

/-- A number below the lowest digit of another one fills the gap under it. -/
theorem or_shiftLeft_of_lt (shift : Nat) {low high : Nat} (lt : low < 2 ^ shift) :
    low ||| high <<< shift = low + high * 2 ^ shift := by
  rw [Nat.or_comm, ← Nat.shiftLeft_add_eq_or_of_lt lt, Nat.shiftLeft_eq, Nat.add_comm]

theorem uint16_or_shiftLeft_byte (low high : UInt8) :
    (low.toUInt16 ||| high.toUInt16 <<< 8).toNat = low.toNat + 256 * high.toNat := by
  have lowLt := low.toNat_lt
  have highLt := high.toNat_lt
  rw [UInt16.toNat_or, UInt16.toNat_shiftLeft, UInt8.toNat_toUInt16, UInt8.toNat_toUInt16]
  show low.toNat ||| high.toNat <<< 8 % 2 ^ 16 = _
  rw [Nat.mod_eq_of_lt (by rw [Nat.shiftLeft_eq]; omega), or_shiftLeft_of_lt 8 (by omega)]
  omega

/-- A half word is put together again from its two bytes. -/
theorem uint16_or_bytes (word : UInt16) :
    word.toUInt8.toUInt16 ||| (word >>> 8).toUInt8.toUInt16 <<< 8 = word := by
  have lt := word.toNat_lt
  rw [← UInt16.toNat_inj, uint16_or_shiftLeft_byte, UInt16.toNat_toUInt8, UInt16.toNat_toUInt8,
    UInt16.toNat_shiftRight]
  show word.toNat % 2 ^ 8 + 256 * (word.toNat >>> 8 % 2 ^ 8) = word.toNat
  rw [Nat.shiftRight_eq_div_pow]
  omega

theorem uint64_shiftLeft_or_word (high low : UInt32) :
    (high.toUInt64 <<< 32 ||| low.toUInt64).toNat = low.toNat + 2 ^ 32 * high.toNat := by
  have lowLt := low.toNat_lt
  have highLt := high.toNat_lt
  rw [UInt64.toNat_or, UInt64.toNat_shiftLeft, UInt32.toNat_toUInt64, UInt32.toNat_toUInt64, Nat.or_comm]
  show low.toNat ||| high.toNat <<< 32 % 2 ^ 64 = _
  rw [Nat.mod_eq_of_lt (by rw [Nat.shiftLeft_eq]; omega), or_shiftLeft_of_lt 32 (by omega)]
  omega

/-- A double word is put together again from its two halves. -/
theorem uint64_or_words (word : UInt64) :
    (word >>> 32).toUInt32.toUInt64 <<< 32 ||| word.toUInt32.toUInt64 = word := by
  have lt := word.toNat_lt
  rw [← UInt64.toNat_inj, uint64_shiftLeft_or_word, UInt64.toNat_toUInt32, UInt64.toNat_toUInt32,
    UInt64.toNat_shiftRight]
  show word.toNat % 2 ^ 32 + 2 ^ 32 * (word.toNat >>> 32 % 2 ^ 32) = word.toNat
  rw [Nat.shiftRight_eq_div_pow]
  omega

/-- A word is put together again from its four bytes. -/
theorem uint32_or_bytes (word : UInt32) :
    word.toUInt8.toUInt32 ||| (word >>> 8).toUInt8.toUInt32 <<< 8 |||
      (word >>> 16).toUInt8.toUInt32 <<< 16 ||| (word >>> 24).toUInt8.toUInt32 <<< 24 = word := by
  have lt := word.toNat_lt
  rw [← UInt32.toNat_inj]
  simp only [UInt32.toNat_or, UInt32.toNat_shiftLeft, UInt8.toNat_toUInt32, UInt32.toNat_toUInt8,
    UInt32.toNat_shiftRight]
  show word.toNat % 2 ^ 8 ||| (word.toNat >>> 8 % 2 ^ 8) <<< 8 % 2 ^ 32 |||
    (word.toNat >>> 16 % 2 ^ 8) <<< 16 % 2 ^ 32 ||| (word.toNat >>> 24 % 2 ^ 8) <<< 24 % 2 ^ 32 =
      word.toNat
  have digit : ∀ shift ≤ 24, (word.toNat >>> shift % 2 ^ 8) <<< shift % 2 ^ 32 =
      (word.toNat / 2 ^ shift % 2 ^ 8) <<< shift := by
    intro shift le
    rw [Nat.shiftRight_eq_div_pow, Nat.mod_eq_of_lt]
    rw [Nat.shiftLeft_eq]
    calc word.toNat / 2 ^ shift % 2 ^ 8 * 2 ^ shift < 2 ^ 8 * 2 ^ shift :=
          Nat.mul_lt_mul_of_pos_right (Nat.mod_lt _ (by decide)) (Nat.two_pow_pos _)
      _ ≤ 2 ^ 8 * 2 ^ 24 := Nat.mul_le_mul_left _ (Nat.pow_le_pow_right (by decide) le)
      _ = 2 ^ 32 := by decide
  rw [digit 8 (by decide), digit 16 (by decide), digit 24 (by decide),
    or_shiftLeft_of_lt 8 (by omega), or_shiftLeft_of_lt 16 (by omega),
    or_shiftLeft_of_lt 24 (by omega)]
  omega

/-- Setting bits outside a mask does not show through it. -/
theorem uint16_or_and {u bits mask : UInt16} (disjoint : bits &&& mask = 0) :
    (u ||| bits) &&& mask = u &&& mask := by
  have none_shared := congrArg UInt16.toNat disjoint
  rw [← UInt16.toNat_inj]
  rw [UInt16.toNat_and] at none_shared ⊢
  rw [UInt16.toNat_or, UInt16.toNat_and, Nat.and_or_distrib_right, none_shared]
  exact Nat.or_zero _

/-- Setting the lowest bit of a word that has it changes nothing. -/
theorem uint16_or_one {u : UInt16} (odd : u &&& 1 ≠ 0) : u ||| 1 = u := by
  have bit : u.toNat.testBit 0 := by
    by_contra even
    apply odd
    rw [← UInt16.toNat_inj, UInt16.toNat_and]
    show u.toNat &&& 1 = 0
    rw [Nat.and_one_is_mod]
    simpa using even
  rw [← UInt16.toNat_inj, UInt16.toNat_or]
  show u.toNat ||| 1 = u.toNat
  apply Nat.eq_of_testBit_eq
  intro i
  rw [Nat.testBit_or]
  cases i with
  | zero => rw [bit]; rfl
  | succ i => simp [Nat.testBit_succ]

/-- A 64-bit number below half its range is the same number with a sign. -/
theorem toInt64_toInt_of_lt {u : UInt64} (lt : u.toNat < 2 ^ 63) : u.toInt64.toInt = u.toNat := by
  rw [← Int64.toInt_toBitVec, UInt64.toBitVec_toInt64, BitVec.toInt_eq_toNat_of_lt]
  · rfl
  · show 2 * u.toNat < 2 ^ 64
    omega

theorem toNat_of_toInt64_toInt {u : UInt64} {n : Nat} (h : u.toInt64.toInt = n) : u.toNat = n := by
  by_cases lt : u.toNat < 2 ^ 63
  · rw [toInt64_toInt_of_lt lt] at h
    exact Int.ofNat.inj h
  · -- the sign bit is set, so the number is negative
    rw [← Int64.toInt_toBitVec, UInt64.toBitVec_toInt64, BitVec.toInt_eq_toNat_cond] at h
    have bound := u.toNat_lt
    have bits : u.toBitVec.toNat = u.toNat := rfl
    rw [if_neg (by omega)] at h
    omega

/-- Read with a sign, a number is not larger. -/
theorem toInt32_toInt_le (u : UInt32) : u.toInt32.toInt ≤ u.toNat := by
  have same : u.toBitVec.toNat = u.toNat := rfl
  rw [← Int32.toInt_toBitVec, UInt32.toBitVec_toInt32, BitVec.toInt_eq_toNat_cond]
  split <;> omega

theorem toInt32_toInt_of_lt {u : UInt32} (lt : u.toNat < 2 ^ 31) : u.toInt32.toInt = u.toNat := by
  have same : u.toBitVec.toNat = u.toNat := rfl
  rw [← Int32.toInt_toBitVec, UInt32.toBitVec_toInt32, BitVec.toInt_eq_toNat_of_lt]
  · rw [same]
  · omega

theorem uint32_toNat_ofInt {i : Int} (low : 0 ≤ i) (high : i < 2 ^ 32) :
    (UInt32.ofInt i).toNat = i.toNat := by
  rw [UInt32.ofInt, Int.emod_eq_of_lt low high]
  apply UInt32.toNat_ofNat_of_lt'
  show i.toNat < 2 ^ 32
  omega

theorem uint32_sub_sub {u one two : UInt32} (le : one.toNat + two.toNat ≤ u.toNat) :
    (u - one - two).toNat = u.toNat - (one.toNat + two.toNat) := by
  have first : (u - one).toNat = u.toNat - one.toNat :=
    UInt32.toNat_sub_of_le _ _ (UInt32.le_iff_toNat_le.2 (by omega))
  rw [UInt32.toNat_sub_of_le _ _ (UInt32.le_iff_toNat_le.2 (by rw [first]; omega)), first, Nat.sub_sub]

theorem uint32_sub_ofNat {u : UInt32} {n : Nat} (le : n ≤ u.toNat) :
    (u - UInt32.ofNat n).toNat = u.toNat - n := by
  have small : (UInt32.ofNat n).toNat = n :=
    UInt32.toNat_ofNat_of_lt' (Nat.lt_of_le_of_lt le (UInt32.toNat_lt u))
  rw [UInt32.toNat_sub_of_le _ _ (UInt32.le_iff_toNat_le.2 (by rw [small]; exact le)), small]

theorem uint32_toUInt64_eq_iff {low : UInt32} {word : UInt64} :
    low.toUInt64 = word ↔ low.toNat = word.toNat := by
  rw [← UInt64.toNat_inj, UInt32.toNat_toUInt64]

/-- A fact about every byte is a fact about the 256 bit vectors. -/
theorem forall_uint8 {P : UInt8 → Prop} (h : ∀ v : BitVec 8, P (UInt8.ofBitVec v)) (b : UInt8) :
    P b := h b.toBitVec

end Bits
