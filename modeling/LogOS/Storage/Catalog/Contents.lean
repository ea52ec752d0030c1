import LogOS.Storage.Catalog.Anchor
import Mathlib.Data.List.Basic

/-!
# What a root refers to

The blocks marked in the bitmap of a root are the blocks it owns.  `Held s R` says that they, and the bitmap itself, will
be found after a power loss as they are now, and that the published extents are among them.  The second half of the
module is about byte strings in blocks: writing them chunk by chunk and reading them back.
-/

namespace LogOS.Storage.Catalog

open Lib SystemCatalogVolume List

/-! ## Bitmaps -/

variable {i start n blocks : ℕ}

section Bitmap

variable {bitmap : Block}

lemma bitmapIsSet_eq : bitmapIsSet bitmap i = (decide (i < 32768) && bitmap.bit i) := by
  unfold bitmapIsSet bitmapPosition blockBytes
  by_cases h : i < 32768
  · simp only [show i / (4096 * 8) = 0 by omega, show 8 * (i / 8 % 4096) + i % 8 = i by omega, h]
    simp
  · simp only [h, decide_false, Bool.false_and, Bool.and_eq_false_imp, beq_iff_eq]
    omega

lemma bitmapIsSet_bitmapSet (hi : i < 32768) (v : Bool) (j : ℕ) :
    bitmapIsSet (bitmapSet bitmap i v) j = if j = i then v else bitmapIsSet bitmap j := by
  have hset : bitmapSet bitmap i v = bitmap.setBit i v := by
    unfold bitmapSet bitmapPosition blockBytes
    simp [show i / (4096 * 8) = 0 by omega, show 8 * (i / 8 % 4096) + i % 8 = i by omega]
  rw [hset, bitmapIsSet_eq, bitmapIsSet_eq, Bytes.bit_setBit _ (by omega)]
  by_cases h : j = i
  · subst h; simp [hi]
  · simp [h]

lemma bitmapIsSet_foldl_set (h : start + n ≤ 32768) (v : Bool) (j : ℕ) :
    bitmapIsSet ((range' start n).foldl (fun b i => bitmapSet b i v) bitmap) j =
      if start ≤ j ∧ j < start + n then v else bitmapIsSet bitmap j := by
  induction n generalizing start bitmap with
  | zero => rw [if_neg (by omega)]; rfl
  | succ n ih =>
    rw [range'_succ, foldl_cons, ih (by omega), bitmapIsSet_bitmapSet (by omega)]
    by_cases hj : j = start
    · rw [if_neg (by omega), if_pos hj, if_pos (by omega)]
    · by_cases hin : start + 1 ≤ j ∧ j < start + 1 + n
      · rw [if_pos hin, if_pos (by omega)]
      · rw [if_neg hin, if_neg hj, if_neg (by omega)]

lemma bitmapIsSet_setExtent {e : Extent} (he : e.start + e.blocks ≤ 32768) (v : Bool) (j : ℕ) :
    bitmapIsSet (bitmapSetExtent v bitmap e) j = if e.Covers j then v else bitmapIsSet bitmap j := by
  rw [bitmapSetExtent, bitmapIsSet_foldl_set he]
  by_cases h : e.Covers j
  · rw [if_pos h]; exact if_pos h
  · rw [if_neg h]; exact if_neg h

lemma bitmapIsSet_foldl_setExtent {l : List Extent} (hl : ∀ e ∈ l, e.start + e.blocks ≤ 32768) (v : Bool) (j : ℕ) :
    bitmapIsSet (l.foldl (bitmapSetExtent v) bitmap) j = if ∃ e ∈ l, e.Covers j then v else bitmapIsSet bitmap j := by
  induction l generalizing bitmap with
  | nil => simp
  | cons e l ih =>
    rw [foldl_cons, ih (fun e h => hl e (by simp [h])), bitmapIsSet_setExtent (hl e (by simp))]
    by_cases h1 : ∃ e ∈ l, e.Covers j
    · obtain ⟨e', he', hc⟩ := h1
      rw [if_pos ⟨e', he', hc⟩, if_pos ⟨e', by simp [he'], hc⟩]
    rw [if_neg h1]
    by_cases h2 : e.Covers j
    · rw [if_pos h2, if_pos ⟨e, by simp, h2⟩]
    · rw [if_neg h2, if_neg]
      rintro ⟨e', he', hc⟩
      rcases mem_cons.mp he' with rfl | he'
      · exact h2 hc
      · exact h1 ⟨e', he', hc⟩

lemma bitmapIsSet_zero (i : ℕ) : bitmapIsSet Block.zero i = false := by
  rw [bitmapIsSet_eq, Block.zero, Bytes.bit_zeros, Bool.and_false]

/-- One block is taken from the front of an arena when it is free. -/
theorem allocateInArena_one {lo hi : ℕ} (hlt : lo < hi) (h : bitmapIsSet bitmap lo = false) :
    allocateInArena bitmap (lo, hi) 1 = .ok lo := by
  obtain ⟨n, rfl⟩ : ∃ n, hi = lo + (n + 1) := ⟨hi - lo - 1, by omega⟩
  simp [allocateInArena, firstFit_one h n]

/-- The blocks that an allocation in an arena finds. -/
theorem allocateInArena_spec {lo hi : ℕ} (hle : lo ≤ hi) (h : allocateInArena bitmap (lo, hi) blocks = .ok start) :
    lo ≤ start ∧ start + blocks ≤ hi ∧ ∀ i, (⟨start, blocks⟩ : Extent).Covers i → bitmapIsSet bitmap i = false := by
  unfold allocateInArena at h
  cases hf : firstFit (bitmapIsSet bitmap) blocks (hi - lo) lo none 0 with
  | none => rw [hf] at h; cases h
  | some r =>
    rw [hf] at h
    obtain rfl := Except.ok.inj h
    obtain ⟨h1, h2, h3⟩ := firstFit_arena hle hf
    exact ⟨h1, h2, fun i hi => h3 i hi.1 hi.2⟩

end Bitmap

/-! ## The blocks of a root -/

/-- The published catalog. -/
def SystemCatalogRoot.catalogExtent (R : SystemCatalogRoot) : Extent := ⟨R.catalogStart, R.catalogBlocks⟩

/-- The published metadata. -/
def SystemCatalogRoot.metadataExtent (R : SystemCatalogRoot) : Extent := ⟨R.metadataStart, R.metadataBlocks⟩

/-- A bitmap that fits a root: it marks blocks of the three arenas only, and the published extents, which do not meet. -/
structure BitmapOk (R : SystemCatalogRoot) (bitmap : Block) : Prop where
  arena : ∀ i, bitmapIsSet bitmap i → R.systemStart ≤ i ∧ i < R.packageEnd
  catalog : ∀ i, R.catalogExtent.Covers i → bitmapIsSet bitmap i
  metadata : ∀ i, R.metadataExtent.Covers i → bitmapIsSet bitmap i
  apart : R.catalogExtent.Disjoint R.metadataExtent

section Held

variable {σ : Type} [BlockStore σ] [LawfulStore σ]

/-- The bitmap of a root, as the store has it now. -/
def bitmapOf (s : σ) (R : SystemCatalogRoot) : Block := view s (bitmapBlock R)

/-- The block is marked in the bitmap of the root. -/
def Used (s : σ) (R : SystemCatalogRoot) (i : ℕ) : Prop := bitmapIsSet (bitmapOf s R) i = true

/-- Everything the root refers to survives a power loss. -/
structure Held (s : σ) (R : SystemCatalogRoot) : Prop where
  bitmapOk : BitmapOk R (bitmapOf s R)
  bitmap : Stable s (bitmapBlock R)
  used : ∀ i, Used s R i → Stable s i

/-- Writes that touch neither the bitmap of the root nor a block it uses. -/
def Spares (s : σ) (R : SystemCatalogRoot) (W : ℕ → Block → Prop) : Prop :=
  ∀ j c, W j c → j ≠ bitmapBlock R ∧ ¬ Used s R j

variable {s s' : σ} {R : SystemCatalogRoot} {W W' : ℕ → Block → Prop}

lemma Spares.noWrite (s : σ) (R : SystemCatalogRoot) : Spares s R noWrite := fun _ _ h => h.elim

section

variable (he : Evolves W s s') (hW : Spares s R W)
include he hW

lemma bitmapOf_evolves : bitmapOf s' R = bitmapOf s R :=
  he.view_eq fun c hw => (hW _ c hw).1 rfl

lemma used_evolves (i : ℕ) : Used s' R i ↔ Used s R i := by
  unfold Used
  rw [bitmapOf_evolves he hW]

/-- A block in use keeps its content. -/
theorem view_of_used (hi : Used s R i) : view s' i = view s i :=
  he.view_eq fun c hw => (hW i c hw).2 hi

end

lemma Held.evolves (h : Held s R) (he : Evolves W s s') (hW : Spares s R W) : Held s' R where
  bitmapOk := by rw [bitmapOf_evolves he hW]; exact h.bitmapOk
  bitmap := h.bitmap.evolves he fun c hw => (hW _ c hw).1 rfl
  used i hi := by
    rw [used_evolves he hW] at hi
    exact (h.used i hi).evolves he fun c hw => (hW i c hw).2 hi

/-- The superblocks are outside of the arenas. -/
theorem Spares.superWrites (hv : R.Valid n) (hb : BitmapOk R (bitmapOf s R)) (F : SystemCatalogRoot) :
    Spares s R (superWrites F) := by
  rintro j c ⟨hj, -⟩
  have h1 := hv.bitmapStart; have h2 := hv.records_lt; have h3 := hv.systemStart
  unfold dataStart commitStart at h3
  refine ⟨by unfold bitmapBlock; omega, fun hu => ?_⟩
  have := hb.arena j hu
  omega

end Held

/-! ## Byte strings in blocks -/

/-- The first `bytes` bytes of the blocks `start .. start + blocks`. -/
def storedBytes (content : ℕ → Block) (start blocks bytes : ℕ) : List UInt8 :=
  ((List.range' start blocks).flatMap fun i => (content i).toList).take bytes

section Bytes

lemma length_flatMap_blocks (content : ℕ → Block) (start blocks : ℕ) :
    ((range' start blocks).flatMap fun i => (content i).toList).length = blocks * 4096 := by
  induction blocks generalizing start with
  | zero => rfl
  | succ n ih => rw [range'_succ, flatMap_cons, length_append, ih, Vector.length_toList]; omega

/-- The byte `i` of a stretch of blocks. -/
theorem getD_flatMap_blocks (content : ℕ → Block) (start blocks i : ℕ) (hi : i < blocks * 4096) :
    ((range' start blocks).flatMap fun i => (content i).toList).getD i 0 =
      (content (start + i / 4096)).byteAt (i % 4096) := by
  induction blocks generalizing start i with
  | zero => omega
  | succ n ih =>
    rw [range'_succ, flatMap_cons]
    by_cases h : i < 4096
    · rw [getD_append _ _ _ _ (by simpa using h), show i / 4096 = 0 by omega, show i % 4096 = i by omega]
      rfl
    · rw [getD_append_right _ _ _ _ (by simp; omega), Vector.length_toList, ih _ _ (by omega),
        show start + 1 + (i - 4096) / 4096 = start + i / 4096 by omega, show (i - 4096) % 4096 = i % 4096 by omega]

variable {content : ℕ → Block} {bytes : ℕ}

lemma length_storedBytes (h : bytes ≤ blocks * 4096) : (storedBytes content start blocks bytes).length = bytes := by
  rw [storedBytes, length_take, length_flatMap_blocks]; omega

lemma getD_storedBytes (hi : i < bytes) (h : bytes ≤ blocks * 4096) :
    (storedBytes content start blocks bytes).getD i 0 = (content (start + i / 4096)).byteAt (i % 4096) := by
  rw [storedBytes, getD_eq_getElem?_getD, getElem?_take_of_lt hi, ← getD_eq_getElem?_getD,
    getD_flatMap_blocks _ _ _ _ (by omega)]

lemma storedBytes_congr {content' : ℕ → Block} (bytes : ℕ)
    (h : ∀ i, (⟨start, blocks⟩ : Extent).Covers i → content i = content' i) :
    storedBytes content start blocks bytes = storedBytes content' start blocks bytes := by
  unfold storedBytes
  congr 1
  refine flatMap_congr fun i hi => ?_
  rw [h i (mem_range'_1.mp hi)]

lemma blocksFor_spec (hn : 0 < n) : 0 < blocksFor n ∧ n ≤ blocksFor n * 4096 ∧ (blocksFor n - 1) * 4096 < n := by
  unfold blocksFor blockBytes
  omega

lemma length_chunk (snapshot : List UInt8) (k : ℕ) : (chunk snapshot k).length = min 4096 (snapshot.length - k * 4096) := by
  unfold chunk blockBytes
  rw [length_slice]
  omega

lemma byteAt_chunkBlock (snapshot : List UInt8) (k i : ℕ) (hi : i < 4096) :
    (chunkBlock snapshot k).byteAt i = snapshot.getD (k * 4096 + i) 0 := by
  have hlen := length_chunk snapshot k
  unfold chunkBlock
  rw [Bytes.byteAt_splice _ _ _ _ (by omega)]
  by_cases h : k * 4096 + i < snapshot.length
  · rw [if_pos (by omega), chunk, getD_slice, if_pos (by unfold blockBytes; omega)]
    rfl
  · rw [if_neg (by omega), getD_eq_default _ _ (by omega), Block.zero, Bytes.byteAt_zeros]

/-- **A byte string written chunk by chunk is read back.** -/
theorem storedBytes_chunks {snapshot : List UInt8}
    (hlen : snapshot.length ≤ blocks * 4096) (h : ∀ k < blocks, content (start + k) = chunkBlock snapshot k) :
    storedBytes content start blocks snapshot.length = snapshot := by
  refine list_ext_getD (d := 0) (length_storedBytes hlen) fun i hi => ?_
  rw [length_storedBytes hlen] at hi
  rw [getD_storedBytes hi hlen, h _ (by omega), byteAt_chunkBlock _ _ _ (by omega)]
  congr 1
  omega

variable {σ : Type} [BlockStore σ] [LawfulStore σ] {s : σ}

lemma wp_copyBlocks (start bytes : ℕ) (n offset : ℕ) (hs : StoreModel.Inv s)
    (hf : ∀ k, offset ≤ k → k < offset + n → faithful s (start + k)) :
    Op.wp (copyBlocks start bytes offset n)
      (fun l s' => Evolves noWrite s s' ∧ l = storedBytes (view s) (start + offset) n (bytes - offset * 4096))
      (fun e s' => Evolves noWrite s s' ∧ (∃ b, e = .block b) ∧
        (Healthy s → ¬ start + offset + n ≤ blockCount s)) s := by
  induction n generalizing offset s with
  | zero => exact ⟨.refl _ _, by simp [storedBytes]⟩
  | succ n ih =>
    unfold copyBlocks
    rw [Op.wp_bind, wp_io]
    refine wp_readBlock hs (fun b s1 e1 hb => ?_) (fun e s1 e1 hh => ⟨e1, ⟨e, rfl⟩, fun h => by have := hh h; omega⟩)
    rw [hb (hf offset (le_refl _) (by omega)), Op.wp_bind]
    refine Op.wp_mono (ih (offset + 1) (e1.inv hs) (fun k h1 h2 => e1.faithful _ (hf k (by omega) (by omega)))) ?_ ?_
    · rintro l s2 ⟨e2, rfl⟩
      refine ⟨e1.trans e2, ?_⟩
      rw [e1.view_eq_of_noWrite, storedBytes, storedBytes, range'_succ, flatMap_cons, take_append,
        Vector.length_toList, ← add_assoc]
      have hhead : slice (view s (start + offset)).toList 0
          (min (offset * blockBytes + blockBytes) bytes - offset * blockBytes) =
          (view s (start + offset)).toList.take (bytes - offset * 4096) := by
        unfold slice blockBytes
        rw [drop_zero, take_eq_take_iff, Vector.length_toList]
        omega
      rw [hhead, show bytes - (offset + 1) * 4096 = bytes - offset * 4096 - 4096 by omega]
    · rintro e s2 ⟨e2, hb, hh⟩
      exact ⟨e1.trans e2, hb, fun h => by have := hh (e1.healthy h); rw [e1.count] at this; omega⟩

/-- Reading a published extent whose byte length the caller's buffer can take. -/
theorem wp_readExtent {capacity : ℕ} (hs : StoreModel.Inv s) (hb : blocks ≠ 0)
    (hc : bytes ≤ capacity) (hl : bytes ≤ blocks * 4096) (hf : ∀ k < blocks, faithful s (start + k)) :
    Op.wp (readExtent start blocks bytes capacity)
      (fun l s' => Evolves noWrite s s' ∧ l = storedBytes (view s) start blocks bytes)
      (fun e s' => Evolves noWrite s s' ∧ (∃ b, e = .block b) ∧ (Healthy s → ¬ start + blocks ≤ blockCount s)) s := by
  unfold readExtent
  rw [if_neg hb, if_neg (by unfold blockBytes; omega)]
  refine Op.wp_mono (wp_copyBlocks start bytes blocks 0 hs (fun k _ hk => hf k (by omega))) ?_ ?_
  · rintro l s' ⟨he, rfl⟩
    exact ⟨he, by simp⟩
  · rintro e s' ⟨he, hb, hh⟩
    exact ⟨he, hb, fun h => by simpa using hh h⟩

end Bytes

end LogOS.Storage.Catalog
