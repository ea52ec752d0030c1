import Mathlib.Data.Nat.Notation
import Mathlib.Tactic.Common

/-!
# Extents and first-fit search

An extent is a stretch of consecutive block numbers.  `firstFit` walks an arena once, counting free blocks and starting
again at every occupied one; what it returns is a stretch of free blocks inside of the arena.
-/

namespace LogOS.Lib

/-- The blocks `start .. start + blocks`. -/
structure Extent where
  start : ℕ
  blocks : ℕ
  deriving DecidableEq, Repr

namespace Extent

/-- The extent contains block `i`. -/
def Covers (e : Extent) (i : ℕ) : Prop := e.start ≤ i ∧ i < e.start + e.blocks

instance (e : Extent) : DecidablePred e.Covers := fun i => by unfold Covers; infer_instance

/-- No block is in both extents. -/
def Disjoint (e f : Extent) : Prop := ∀ i, e.Covers i → ¬ f.Covers i

lemma Disjoint.symm {e f : Extent} (h : e.Disjoint f) : f.Disjoint e := fun i hf he => h i he hf

/-- The number of blocks of a list of extents. -/
def total : List Extent → ℕ
  | [] => 0
  | e :: l => e.blocks + total l

/-- The block number `index` of a list of extents, counted through all of them. -/
def blockAt : List Extent → ℕ → Option ℕ
  | [], _ => none
  | e :: l, index => if index < e.blocks then some (e.start + index) else blockAt l (index - e.blocks)

/-- Two nonempty extents are disjoint when one ends before the other starts. -/
theorem disjoint_iff {e f : Extent} (he : 0 < e.blocks) (hf : 0 < f.blocks) :
    e.Disjoint f ↔ e.start + e.blocks ≤ f.start ∨ f.start + f.blocks ≤ e.start := by
  constructor
  · intro h
    by_contra hn
    by_cases hs : e.start ≤ f.start
    · exact h f.start ⟨hs, by omega⟩ ⟨Nat.le_refl _, by omega⟩
    · exact h e.start ⟨Nat.le_refl _, by omega⟩ ⟨by omega, by omega⟩
  · rintro h i ⟨h1, h2⟩ ⟨h3, h4⟩
    omega

end Extent

/-- The search from `index` on, `n` blocks far: `start` is where the current free run began and `length` how long it
is. -/
def firstFit (occupied : ℕ → Bool) (want : ℕ) : ℕ → ℕ → Option ℕ → ℕ → Option ℕ
  | 0, _, _, _ => none
  | n + 1, index, start, length =>
    if occupied index then firstFit occupied want n (index + 1) none 0
    else if length + 1 = want then some (start.getD index)
    else firstFit occupied want n (index + 1) (some (start.getD index)) (length + 1)

/-- One block is found at once where the first one is free. -/
theorem firstFit_one {occupied : ℕ → Bool} {index : ℕ} (h : occupied index = false) (n : ℕ) :
    firstFit occupied 1 (n + 1) index none 0 = some index := by
  simp [firstFit, h]

/-- The state of the search: the current run is free, lies behind `index` and reaches up to it. -/
def RunOk (occupied : ℕ → Bool) (lo index : ℕ) (start : Option ℕ) (length : ℕ) : Prop :=
  lo ≤ start.getD index ∧ start.getD index + length = index ∧
    ∀ i, start.getD index ≤ i → i < index → occupied i = false

lemma firstFit_sound {occupied : ℕ → Bool} {want lo r : ℕ} :
    ∀ {n index length : ℕ} {start : Option ℕ}, RunOk occupied lo index start length →
      firstFit occupied want n index start length = some r →
      lo ≤ r ∧ r + want ≤ index + n ∧ ∀ i, r ≤ i → i < r + want → occupied i = false
  | 0, _, _, _, _, h => by simp [firstFit] at h
  | n + 1, index, length, start, ⟨hlo, hlen, hfree⟩, h => by
    rw [firstFit] at h
    by_cases ho : occupied index
    · rw [if_pos ho] at h
      have hrun : RunOk occupied lo (index + 1) none 0 := ⟨by simp; omega, by simp, by simp; omega⟩
      have := firstFit_sound hrun h
      exact ⟨this.1, by omega, this.2.2⟩
    · have hfree' : ∀ i, start.getD index ≤ i → i < index + 1 → occupied i = false := by
        intro i h1 h2
        by_cases hi : i = index
        · subst hi; simpa using ho
        · exact hfree i h1 (by omega)
      rw [if_neg ho] at h
      by_cases hw : length + 1 = want
      · rw [if_pos hw] at h
        obtain rfl : start.getD index = r := by simpa using h
        exact ⟨hlo, by omega, fun i h1 h2 => hfree' i h1 (by omega)⟩
      · rw [if_neg hw] at h
        have hrun : RunOk occupied lo (index + 1) (some (start.getD index)) (length + 1) :=
          ⟨hlo, by simp; omega, by simpa using hfree'⟩
        have := firstFit_sound hrun h
        exact ⟨this.1, by omega, this.2.2⟩

/-- What a search over the arena `lo .. hi` finds. -/
theorem firstFit_arena {occupied : ℕ → Bool} {want lo hi r : ℕ} (hle : lo ≤ hi)
    (h : firstFit occupied want (hi - lo) lo none 0 = some r) :
    lo ≤ r ∧ r + want ≤ hi ∧ ∀ i, r ≤ i → i < r + want → occupied i = false := by
  have hrun : RunOk occupied lo lo none 0 := ⟨by simp, by simp, by simp; omega⟩
  have := firstFit_sound hrun h
  exact ⟨this.1, by omega, this.2.2⟩

end LogOS.Lib
