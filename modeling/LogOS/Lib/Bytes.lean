import Mathlib.Data.List.GetD
import Mathlib.Data.Nat.Notation
import Mathlib.Tactic.Common
import Mathlib.Tactic.Ring

/-!
# Byte arrays, slices and little-endian numbers

`Bytes n` is the array type `[u8; n]` and `List UInt8` a slice.  `splice` overwrites a stretch of an array, `slice` reads
one, and the two lemmas `slice_splice_self` and `slice_splice_of_disjoint` are all that a fixed-offset record format
needs: what was stored at an offset is read back, and a store elsewhere does not disturb it.
-/

namespace LogOS.Lib

/-- The array type `[u8; n]`. -/
abbrev Bytes (n : ℕ) : Type := Vector UInt8 n

/-- The elements `lo .. hi` of a slice. -/
def slice {α : Type} (l : List α) (lo hi : ℕ) : List α := (l.drop lo).take (hi - lo)

section Slices

variable {α : Type}

@[simp] lemma length_slice (l : List α) (lo hi : ℕ) : (slice l lo hi).length = min (hi - lo) (l.length - lo) := by
  simp [slice]

lemma getElem?_slice (l : List α) (lo hi i : ℕ) : (slice l lo hi)[i]? = if i < hi - lo then l[lo + i]? else none := by
  unfold slice
  rw [List.getElem?_take]
  split <;> simp [List.getElem?_drop]

lemma slice_append_slice {l : List α} {a b c : ℕ} (hab : a ≤ b) (hbc : b ≤ c) : slice l a b ++ slice l b c = slice l a c := by
  unfold slice
  rw [show c - a = b - a + (c - b) by omega, List.take_add, List.drop_drop, show a + (b - a) = b by omega]

/-- Two lists of one length that agree at every place are equal. -/
theorem list_ext_getD {l l' : List α} {d : α} (hl : l.length = l'.length)
    (h : ∀ i < l.length, l.getD i d = l'.getD i d) : l = l' := by
  refine List.ext_getElem hl fun i h1 h2 => ?_
  have := h i h1
  rwa [List.getD_eq_getElem _ _ h1, List.getD_eq_getElem _ _ h2] at this

lemma getD_slice (l : List α) (lo hi i : ℕ) (d : α) :
    (slice l lo hi).getD i d = if i < hi - lo then l.getD (lo + i) d else d := by
  rw [List.getD_eq_getElem?_getD, getElem?_slice]
  split <;> simp [List.getD_eq_getElem?_getD]

/-- Byte `i` of a string of pieces of `n` bytes each. -/
theorem getD_flatMap {β : Type} {f : α → List β} {n : ℕ} (hn : 0 < n) (a : α) (d : β) :
    ∀ {l : List α} {i : ℕ}, (∀ x ∈ l, (f x).length = n) → i < l.length * n →
      (l.flatMap f).getD i d = (f (l.getD (i / n) a)).getD (i % n) d
  | [], i, _, hi => by simp at hi
  | x :: l, i, hf, hi => by
    have hx : (f x).length = n := hf x (by simp)
    rw [List.flatMap_cons]
    by_cases h : i < n
    · rw [List.getD_append _ _ _ _ (by omega), Nat.div_eq_of_lt h, Nat.mod_eq_of_lt h, List.getD_cons_zero]
    · have hi' : i - n < l.length * n := by
        rw [List.length_cons, Nat.succ_mul] at hi
        omega
      rw [List.getD_append_right _ _ _ _ (by omega), hx, getD_flatMap hn a d (fun y hy => hf y (by simp [hy])) hi',
        show i = i - n + n by omega, Nat.add_div_right _ hn, Nat.add_mod_right, List.getD_cons_succ, Nat.add_sub_cancel]

lemma length_flatMap_const {β : Type} {f : α → List β} {n : ℕ} {l : List α} (hf : ∀ x ∈ l, (f x).length = n) :
    (l.flatMap f).length = l.length * n := by
  induction l with
  | nil => simp
  | cons x l ih =>
    rw [List.flatMap_cons, List.length_append, hf x (by simp), ih fun y hy => hf y (by simp [hy]), List.length_cons,
      Nat.succ_mul, Nat.add_comm]

end Slices

namespace Bytes

variable {n : ℕ}

/-- The byte at `i`, zero outside of the array. -/
def byteAt (b : Bytes n) (i : ℕ) : UInt8 := b.toList.getD i 0

/-- The array of all zeros. -/
def zeros (n : ℕ) : Bytes n := Vector.ofFn fun _ => 0

/-- `b[off .. off + src.len()].copy_from_slice(src)`. -/
def splice (b : Bytes n) (off : ℕ) (src : List UInt8) : Bytes n :=
  Vector.ofFn fun i => if off ≤ i.val ∧ i.val < off + src.length then src.getD (i.val - off) 0 else b[i]

lemma byteAt_of_le {b : Bytes n} {i : ℕ} (h : n ≤ i) : b.byteAt i = 0 := by
  simp [byteAt, h]

lemma byteAt_eq_getElem (b : Bytes n) {i : ℕ} (h : i < n) : b.byteAt i = b[i] := by
  simp [byteAt, h]

lemma byteAt_ofFn (f : Fin n → UInt8) {i : ℕ} (h : i < n) : byteAt (Vector.ofFn f) i = f ⟨i, h⟩ := by
  rw [byteAt_eq_getElem _ h, Vector.getElem_ofFn]

@[ext] lemma ext_byteAt {a b : Bytes n} (h : ∀ i < n, a.byteAt i = b.byteAt i) : a = b := by
  refine Vector.ext fun i hi => ?_
  have := h i hi
  rwa [byteAt_eq_getElem _ hi, byteAt_eq_getElem _ hi] at this

@[simp] lemma byteAt_zeros (i : ℕ) : (zeros n).byteAt i = 0 := by
  by_cases h : i < n
  · rw [zeros, byteAt_ofFn _ h]
  · exact byteAt_of_le (by omega)

lemma byteAt_splice (b : Bytes n) (off : ℕ) (src : List UInt8) (i : ℕ) (h : off + src.length ≤ n) :
    (b.splice off src).byteAt i =
      if off ≤ i ∧ i < off + src.length then src.getD (i - off) 0 else b.byteAt i := by
  by_cases hi : i < n
  · rw [splice, byteAt_ofFn _ hi]
    split <;> simp [byteAt_eq_getElem _ hi]
  · rw [byteAt_of_le (by omega), if_neg (by omega), byteAt_of_le (by omega)]

/-- The stretch `lo .. hi` of an array. -/
theorem getD_toList (b : Bytes n) (i : ℕ) : b.toList.getD i 0 = b.byteAt i := rfl

lemma slice_splice_self (b : Bytes n) (off : ℕ) (src : List UInt8) (h : off + src.length ≤ n) :
    slice (b.splice off src).toList off (off + src.length) = src := by
  refine list_ext_getD (d := 0) (by simp; omega) fun i hi => ?_
  have hi : i < src.length := by simp at hi; omega
  rw [getD_slice, if_pos (by omega), getD_toList, byteAt_splice _ _ _ _ h, if_pos (by omega)]
  congr 1; omega

lemma slice_splice_of_disjoint (b : Bytes n) (off lo hi : ℕ) (src : List UInt8) (h : off + src.length ≤ n)
    (hd : hi ≤ off ∨ off + src.length ≤ lo) : slice (b.splice off src).toList lo hi = slice b.toList lo hi := by
  refine list_ext_getD (d := 0) (by simp) fun i hi' => ?_
  have hi' : i < hi - lo := by simp at hi'; omega
  rw [getD_slice, getD_slice, if_pos hi', if_pos hi', getD_toList, getD_toList, byteAt_splice _ _ _ _ h,
    if_neg (by omega)]

/-- Overwriting an array as a whole. -/
theorem splice_toList (a b : Bytes n) : a.splice 0 b.toList = b := by
  refine ext_byteAt fun i hi => ?_
  rw [byteAt_splice _ _ _ _ (by simp), if_pos (by simpa using hi), getD_toList, Nat.sub_zero]

end Bytes

/-! ## Little-endian numbers -/

/-- `v.to_le_bytes()` of a number of `w` bytes. -/
def leBytes : ℕ → ℕ → List UInt8
  | 0, _ => []
  | w + 1, v => UInt8.ofNat v :: leBytes w (v / 256)

/-- `from_le_bytes`. -/
def leVal : List UInt8 → ℕ
  | [] => 0
  | b :: l => b.toNat + 256 * leVal l

@[simp] lemma length_leBytes (w v : ℕ) : (leBytes w v).length = w := by
  induction w generalizing v with
  | zero => rfl
  | succ w ih => simp [leBytes, ih]

lemma leVal_leBytes (w v : ℕ) : leVal (leBytes w v) = v % 256 ^ w := by
  induction w generalizing v with
  | zero => simp [leBytes, leVal, Nat.mod_one]
  | succ w ih =>
    simp only [leBytes, leVal, ih, UInt8.toNat_ofNat']
    rw [show 2 ^ 8 = 256 by norm_num, Nat.pow_succ, Nat.mul_comm (256 ^ w) 256, Nat.mod_mul]

lemma leVal_leBytes_of_lt {w v : ℕ} (h : v < 256 ^ w) : leVal (leBytes w v) = v := by
  rw [leVal_leBytes, Nat.mod_eq_of_lt h]

/-- The number of `w` bytes stored at `off`. -/
def getLe (l : List UInt8) (off w : ℕ) : ℕ := leVal (slice l off (off + w))

lemma leVal_lt : ∀ l : List UInt8, leVal l < 256 ^ l.length
  | [] => by simp [leVal]
  | b :: l => by
    have := leVal_lt l
    have := b.toNat_lt
    rw [leVal, List.length_cons]
    omega

lemma getLe_lt (l : List UInt8) (off w : ℕ) : getLe l off w < 256 ^ w :=
  Nat.lt_of_lt_of_le (leVal_lt _) (Nat.pow_le_pow_right (by decide) (by simp))

/-- Storing a number of `w` bytes at `off`. -/
def putLe {n : ℕ} (b : Bytes n) (off w v : ℕ) : Bytes n := b.splice off (leBytes w v)

section PutGet

variable {n : ℕ} (b : Bytes n) (off w v : ℕ)

lemma getLe_putLe_self (h : off + w ≤ n) (hv : v < 256 ^ w) : getLe (putLe b off w v).toList off w = v := by
  have := Bytes.slice_splice_self b off (leBytes w v) (by simpa using h)
  rw [length_leBytes] at this
  rw [getLe, putLe, this, leVal_leBytes_of_lt hv]

lemma getLe_putLe_of_disjoint (off' w' : ℕ) (h : off + w ≤ n) (hd : off' + w' ≤ off ∨ off + w ≤ off') :
    getLe (putLe b off w v).toList off' w' = getLe b.toList off' w' := by
  rw [getLe, putLe, Bytes.slice_splice_of_disjoint _ _ _ _ _ (by simpa using h) (by simpa using hd), getLe]

lemma slice_putLe_of_disjoint (lo hi : ℕ) (h : off + w ≤ n) (hd : hi ≤ off ∨ off + w ≤ lo) :
    slice (putLe b off w v).toList lo hi = slice b.toList lo hi :=
  Bytes.slice_splice_of_disjoint _ _ _ _ _ (by simpa using h) (by simpa using hd)

lemma byteAt_putLe_of_disjoint (i : ℕ) (h : off + w ≤ n) (hd : i < off ∨ off + w ≤ i) :
    (putLe b off w v).byteAt i = b.byteAt i := by
  rw [putLe, Bytes.byteAt_splice _ _ _ _ (by simpa using h), if_neg (by rw [length_leBytes]; omega)]

end PutGet

end LogOS.Lib
