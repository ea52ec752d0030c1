import LogOS.Lib.Bytes
import Mathlib.Data.Nat.Bitwise
import Mathlib.Tactic.IntervalCases

/-!
# Bit sets in byte arrays

The bit `i` of an array is the bit `i % 8` of its byte `i / 8`, tested and changed with a mask, as the programs that keep
allocation bitmaps do it.
-/

namespace LogOS.Lib

section Masks

variable (x : UInt8) {k j : ℕ}

lemma toNat_mask (hk : k < 8) : ((1 : UInt8) <<< UInt8.ofNat k).toNat = 2 ^ k := by
  interval_cases k <;> rfl

lemma getLsbD_mask (hk : k < 8) (j : ℕ) : ((1 : UInt8) <<< UInt8.ofNat k).toBitVec.getLsbD j = decide (k = j) := by
  show Nat.testBit ((1 : UInt8) <<< UInt8.ofNat k).toNat j = _
  rw [toNat_mask hk, Nat.testBit_two_pow]

lemma and_mask_ne_zero (hk : k < 8) : (x &&& (1 <<< UInt8.ofNat k) ≠ 0) ↔ x.toBitVec.getLsbD k = true := by
  rw [ne_eq, ← UInt8.toNat_inj, UInt8.toNat_and, toNat_mask hk, Nat.and_two_pow]
  show ¬ (Nat.testBit x.toNat k).toNat * 2 ^ k = 0 ↔ Nat.testBit x.toNat k = true
  cases Nat.testBit x.toNat k <;> simp

lemma getLsbD_or_mask (hk : k < 8) :
    (x ||| (1 <<< UInt8.ofNat k)).toBitVec.getLsbD j = (x.toBitVec.getLsbD j || decide (k = j)) := by
  rw [UInt8.toBitVec_or, BitVec.getLsbD_or, getLsbD_mask hk]

lemma getLsbD_and_not_mask (hk : k < 8) (hj : j < 8) :
    (x &&& ~~~(1 <<< UInt8.ofNat k)).toBitVec.getLsbD j = (x.toBitVec.getLsbD j && !decide (k = j)) := by
  rw [UInt8.toBitVec_and, BitVec.getLsbD_and, UInt8.toBitVec_not, BitVec.getLsbD_not, getLsbD_mask hk]
  simp [hj]

end Masks

namespace Bytes

variable {n : ℕ}

/-- The test of bit `i`. -/
def bit (b : Bytes n) (i : ℕ) : Bool := b.byteAt (i / 8) &&& (1 <<< UInt8.ofNat (i % 8)) != 0

/-- Setting or clearing bit `i`. -/
def setBit (b : Bytes n) (i : ℕ) (v : Bool) : Bytes n :=
  let mask : UInt8 := 1 <<< UInt8.ofNat (i % 8)
  b.splice (i / 8) [if v then b.byteAt (i / 8) ||| mask else b.byteAt (i / 8) &&& ~~~mask]

lemma bit_eq (b : Bytes n) (i : ℕ) : b.bit i = (b.byteAt (i / 8)).toBitVec.getLsbD (i % 8) := by
  have h := and_mask_ne_zero (b.byteAt (i / 8)) (k := i % 8) (Nat.mod_lt _ (by norm_num))
  rw [Bool.eq_iff_iff, ← h]
  simp [bit]

@[simp] lemma bit_zeros (i : ℕ) : (zeros n).bit i = false := by simp [bit]

lemma bit_setBit (b : Bytes n) {i : ℕ} (hi : i < 8 * n) (v : Bool) (j : ℕ) :
    (b.setBit i v).bit j = if j = i then v else b.bit j := by
  have hi8 : i % 8 < 8 := Nat.mod_lt _ (by norm_num)
  have hj8 : j % 8 < 8 := Nat.mod_lt _ (by norm_num)
  simp only [bit_eq, setBit]
  rw [byteAt_splice _ _ _ _ (by simp; omega)]
  by_cases hbyte : j / 8 = i / 8
  · rw [if_pos (by simp; omega), hbyte]
    simp only [Nat.sub_self, List.getD_cons_zero]
    cases v
    · simp only [Bool.false_eq_true, if_false, getLsbD_and_not_mask _ hi8 hj8]
      by_cases hij : j = i
      · simp [hij]
      · simp [hij, show ¬ i % 8 = j % 8 by omega]
    · simp only [if_true, getLsbD_or_mask _ hi8]
      by_cases hij : j = i
      · simp [hij]
      · simp [hij, show ¬ i % 8 = j % 8 by omega]
  · rw [if_neg (by simp; omega), if_neg (by rintro rfl; exact hbyte rfl)]

/-- The bits `lo .. lo + k` set to `v`, one after the other. -/
def setBits (b : Bytes n) (v : Bool) (lo : ℕ) : ℕ → Bytes n
  | 0 => b
  | k + 1 => (b.setBit lo v).setBits v (lo + 1) k

end Bytes

end LogOS.Lib
