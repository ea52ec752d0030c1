import LogOS.Storage.Catalog.Publish

/-!
# Replacing the catalog and the metadata

Both calls write a byte string into free blocks of the system arena and publish a root that refers to it.  What a call is
going to publish depends on the root and on its bitmap alone (`CatalogPlan`, `MetadataPlan`); the two specifications say that a
call ends with exactly that, or leaves the store where a failed publication can stop.
-/

namespace LogOS.Storage.Catalog

open Lib SystemCatalogVolume Op StoreModel

variable {σ : Type} [BlockStore σ] [LawfulStore σ] {s s' : σ} {v : SystemCatalogVolume} {R R' : SystemCatalogRoot}
  {blocks n : ℕ} {bitmap : Block} {snapshot : List UInt8}

/-- The blocks of a store hold a byte string. -/
def HoldsChunks (s : σ) (start blocks : ℕ) (snapshot : List UInt8) : Prop :=
  ∀ k < blocks, view s (start + k) = chunkBlock snapshot k

/-- Any writes to the blocks of an extent. -/
def extentWrites (e : Extent) : ℕ → Block → Prop := fun j _ => e.Covers j

lemma wp_writeChunks (start blocks : ℕ) (snapshot : List UInt8) (hs : Inv s) (hn : start + blocks ≤ blockCount s) :
    wp (writeChunks start snapshot blocks)
      (fun _ s' => Evolves (extentWrites ⟨start, blocks⟩) s s' ∧ HoldsChunks s' start blocks snapshot)
      (fun e s' => (∃ b, e = .block b) ∧ ¬ Healthy s ∧ Evolves (extentWrites ⟨start, blocks⟩) s s') s := by
  unfold writeChunks
  have hloop := wp_forRange (σ := σ) (f := fun offset => io (writeBlock (start + offset) (chunkBlock snapshot offset)))
    (fun n s' => Evolves (extentWrites ⟨start, blocks⟩) s s' ∧ HoldsChunks s' start n snapshot)
    (E := fun e s' => (∃ b, e = .block b) ∧ ¬ Healthy s ∧ Evolves (extentWrites ⟨start, blocks⟩) s s') blocks 0 s ?_ ?_
  · simpa using hloop
  · rintro i s' - hi ⟨he, hc⟩
    rw [wp_io]
    refine wp_writeBlock (he.inv hs) (fun s'' he' hv => ⟨?_, fun k hk => ?_⟩)
      (fun e s'' he' hh => ⟨⟨e, rfl⟩, fun h => hh (he.healthy h) (by rw [he.count]; omega),
        he.trans (he'.of_noWrite _)⟩)
    · refine he.trans (he'.mono ?_)
      rintro j c ⟨rfl, -⟩
      exact ⟨by dsimp only; omega, by dsimp only; omega⟩
    · by_cases hki : k = i
      · rw [hki]; exact hv
      · rw [he'.view_eq (by rintro c ⟨h, -⟩; omega)]
        exact hc k (by omega)
  · exact ⟨.refl _ _, fun k hk => by omega⟩

/-- `verify_catalog` and `verify_metadata` find what was written. -/
theorem wp_verifyCatalog {root : SystemCatalogRoot} {expected : List UInt8} (hs : Inv s)
    (h : HoldsChunks s root.catalogStart root.catalogBlocks expected)
    (hn : root.catalogStart + root.catalogBlocks ≤ blockCount s) :
    wp (verifyCatalog root expected) (fun _ => Evolves noWrite s) (ReadFails s) s := by
  refine wp_verifyLoop _ fun i s' he hi => ?_
  exact wp_verifyBlock 2 (he.inv (by exact hs)) (by rw [he.view_eq_of_noWrite]; exact h i hi) (by rw [he.count]; omega)

lemma slice_chunkBlock (snapshot : List UInt8) (k : ℕ) :
    slice (chunkBlock snapshot k).toList 0 (chunk snapshot k).length = chunk snapshot k := by
  have h := length_chunk snapshot k
  have := Bytes.slice_splice_self Block.zero 0 (chunk snapshot k) (by omega)
  rwa [zero_add] at this

lemma wp_verifyMetadata {root : SystemCatalogRoot} {expected : List UInt8} (hs : Inv s)
    (h : HoldsChunks s root.metadataStart root.metadataBlocks expected)
    (hn : root.metadataStart + root.metadataBlocks ≤ blockCount s) :
    wp (verifyMetadata root expected) (fun _ => Evolves noWrite s) (ReadFails s) s := by
  refine wp_verifyLoop _ fun i s' he hi => ?_
  rw [wp_bind, wp_io]
  refine wp_readBlockUncached (he.inv hs) (fun s'' he' => ?_)
    (fun e s'' he' hh => ⟨he', ⟨e, rfl⟩, fun h => hh h (by rw [he.count]; omega)⟩)
  rw [he.view_eq_of_noWrite, h i hi, if_neg (by simp [slice_chunkBlock])]
  exact he'

/-! ## One replacement -/

/-- The bitmap after the extent `fresh` took the place of the extent `old`. -/
def replaceBits (bitmap : Block) (fresh old : Extent) : Block :=
  bitmapSetExtent false (bitmapSetExtent true bitmap fresh) old

lemma bitmapIsSet_replaceBits {fresh old : Extent} (hf : fresh.start + fresh.blocks ≤ 32768)
    (ho : old.start + old.blocks ≤ 32768) (i : ℕ) :
    bitmapIsSet (replaceBits bitmap fresh old) i = true ↔
      ¬ old.Covers i ∧ (fresh.Covers i ∨ bitmapIsSet bitmap i = true) := by
  rw [replaceBits, bitmapIsSet_setExtent ho, bitmapIsSet_setExtent hf]
  by_cases h1 : old.Covers i <;> by_cases h2 : fresh.Covers i <;> simp [h1]

/-- The blocks of a free extent are written on a volume that stays at rest. -/
theorem wp_writeFree {start : ℕ} (snapshot : List UInt8) (h : VolumeOk s v) (hlo : v.root.systemStart ≤ start)
    (hhi : start + blocks ≤ v.root.systemEnd) (hfree : ∀ i, (⟨start, blocks⟩ : Extent).Covers i → ¬ Used s v.root i) :
    wp (writeChunks start snapshot blocks)
      (fun _ s' => VolumeOk s' v ∧ Evolves (freeWrites s v.root) s s' ∧ HoldsChunks s' start blocks snapshot)
      (fun e s' => (∃ b, e = .block b) ∧ ¬ Healthy s ∧ VolumeOk s' v ∧ Evolves (freeWrites s v.root) s s') s := by
  have hend := h.valid.systemEnd_le
  have hsp : Spares s v.root (extentWrites ⟨start, blocks⟩) := fun j _ hj => by
    refine ⟨?_, hfree j hj⟩
    have h1 := hj.2; have h2 := h.valid.bitmapStart
    dsimp only at h1
    unfold bitmapBlock; omega
  have hd : ∀ j c, extentWrites ⟨start, blocks⟩ j c → dataStart ≤ j := by
    rintro j _ ⟨hj, -⟩
    have := h.valid.systemStart
    dsimp only at hj
    omega
  refine wp_mono (wp_writeChunks start blocks snapshot h.inv (by omega)) ?_ ?_
  · rintro _ s' ⟨he, hc⟩
    exact ⟨h.evolves he hsp hd, hsp.free he, hc⟩
  · rintro e s' ⟨hb, hh, he⟩
    exact ⟨hb, hh, h.evolves he hsp hd, hsp.free he⟩

/-- A publication of a byte string in a free extent. -/
theorem wp_writeAndPublish {start : ℕ} (snapshot : List UInt8) (verifyData : Op σ CatalogError Unit)
    (h : VolumeOk s v) (hlo : v.root.systemStart ≤ start) (hhi : start + blocks ≤ v.root.systemEnd)
    (hfree : ∀ i, (⟨start, blocks⟩ : Extent).Covers i → ¬ Used s v.root i)
    (hF : Follows (blockCount s) v.root R') (hb : BitmapOk R' bitmap)
    (hverify : ∀ s' : σ, Inv s' → blockCount s' = blockCount s → HoldsChunks s' start blocks snapshot →
      wp verifyData (fun _ => Evolves noWrite s') (ReadFails s') s') :
    wp (do writeChunks start snapshot blocks; publish v R' bitmap verifyData)
      (fun v' s' => v'.root = R' ∧ VolumeOk s' v' ∧ bitmapOf s' R' = bitmap ∧ Evolves (freeWrites s v.root) s s' ∧
        HoldsChunks s' start blocks snapshot)
      (fun e s' => (∃ b, e = .block b) ∧ ¬ Healthy s ∧ Evolves (freeWrites s v.root) s s' ∧ Held s' v.root ∧
        (Settled s' v.root ∨
          (Committed s' v.root R' bitmap ∧ Held s' R' ∧ HoldsChunks s' start blocks snapshot))) s := by
  refine wp_step (wp_writeFree snapshot h hlo hhi hfree) ?_ ?_
  swap
  · rintro e s1 ⟨hbl, hh, h1, e1⟩
    exact ⟨hbl, hh, e1, h1.held, .inl h1.settled⟩
  rintro _ s1 ⟨h1, e1, hc1⟩
  have hF1 : Follows (blockCount s1) v.root R' := by rw [e1.count]; exact hF
  have hkeep : ∀ {W : ℕ → Block → Prop} {s2 : σ}, Evolves W s1 s2 → (∀ j c, W j c → j = bitmapBlock R' ∨ j < dataStart) →
      HoldsChunks s2 start blocks snapshot := by
    intro W s2 e2 hW k hk
    rw [e2.view_eq fun c hw => ?_]
    · exact hc1 k hk
    · have := h.valid.systemStart; have := h.valid.systemEnd_le; have := hF.valid.bitmapStart
      unfold bitmapBlock at hW
      rcases hW _ c hw with hw | hw <;> omega
  have hpw : ∀ j c, publishWrites R' bitmap j c → j = bitmapBlock R' ∨ j < dataStart := fun j c hw => hw.imp And.left id
  refine wp_mono (wp_publish_volume h1 hF1 hb fun s2 e2 =>
    hverify s2 (e2.inv h1.inv) (e2.count.trans e1.count) (hkeep e2 fun j c hw => .inl hw.1)) ?_ ?_
  · rintro v' s2 ⟨hr, hok, hbm, e2⟩
    have e2' := (publishWrites_spares h1.held h1.valid hF1).free e2
    exact ⟨hr, hok, hbm, freeWrites_trans e1 e2', hkeep e2 hpw⟩
  · rintro e s2 ⟨hbl, hh, e2, hheld, hstop⟩
    have e2' := (publishWrites_spares h1.held h1.valid hF1).free e2
    exact ⟨hbl, fun h => hh (e1.healthy h), freeWrites_trans e1 e2', hheld,
      hstop.imp_right fun ⟨hcm, hheld'⟩ => ⟨hcm, hheld', hkeep e2 hpw⟩⟩

/-! ## How a publishing call ends -/

/-- The error is an I/O error. -/
def CatalogError.IsIo (e : CatalogError) : Prop := ∃ b, e = .block b

/-- What a call is going to publish: a root and its bitmap. -/
abbrev PlanRel : Type := SystemCatalogRoot → Block → Prop

/-- The call succeeded: the volume is at rest on a root that was planned, and the data is in place. -/
structure Published (P : PlanRel) (D : σ → SystemCatalogRoot → Prop) (s : σ) (v v' : SystemCatalogVolume) (s' : σ) :
    Prop where
  plan : P v'.root (bitmapOf s' v'.root)
  atRest : VolumeOk s' v'
  frame : Evolves (freeWrites s v.root) s s'
  data : D s' v'.root

/-- The call failed after its commit record was written. -/
structure Overtaken (P : PlanRel) (D : σ → SystemCatalogRoot → Prop) (s' : σ) (R R' : SystemCatalogRoot) : Prop where
  plan : P R' (bitmapOf s' R')
  state : Torn s' R R' ∨ Settled s' R'
  held : Held s' R'
  data : D s' R'

/-- Where a call that fails may stop: nothing the old root refers to is touched, and the store is either still decided for
the old root, or about to be decided for the planned one. -/
structure Halted (P : PlanRel) (D : σ → SystemCatalogRoot → Prop) (s : σ) (v : SystemCatalogVolume) (s' : σ) : Prop where
  frame : Evolves (freeWrites s v.root) s s'
  held : Held s' v.root
  state : Settled s' v.root ∨ ∃ R', Overtaken P D s' v.root R'

/-- The call failed; without an I/O error there is nothing that could have been published. -/
structure Failed (P : PlanRel) (D : σ → SystemCatalogRoot → Prop) (s : σ) (v : SystemCatalogVolume) (ioError : Prop) (s' : σ) :
    Prop where
  frame : Evolves (freeWrites s v.root) s s'
  held : Held s' v.root
  state : Settled s' v.root ∨ ∃ R', Overtaken P D s' v.root R'
  reason : (ioError ∧ ¬ Healthy s) ∨ (¬ ioError ∧ Settled s' v.root ∧ ∀ R' bitmap, ¬ P R' bitmap)

variable {P : PlanRel} {D : σ → SystemCatalogRoot → Prop} {ioError : Prop} {W : ℕ → Block → Prop}

/-- A call that is refused before it does anything. -/
theorem Failed.refused (h : VolumeOk s v) (hio : ¬ ioError)
    (he : Evolves W s s') (hW : Spares s v.root W) (hd : ∀ j c, W j c → dataStart ≤ j)
    (hP : ∀ R' bitmap, ¬ P R' bitmap) : Failed P D s v ioError s' :=
  have h' := h.evolves he hW hd
  ⟨hW.free he, h'.held, .inl h'.settled, .inr ⟨hio, h'.settled, hP⟩⟩

lemma Failed.refused_at_once (h : VolumeOk s v) (hio : ¬ ioError) (hP : ∀ R' bitmap, ¬ P R' bitmap) :
    Failed P D s v ioError s :=
  .refused h hio (.refl noWrite s) (.noWrite _ _) (fun _ _ h => h.elim) hP

/-! ## The catalog -/

/-- What `replace_catalog` publishes on a volume with the root `R` and the given bitmap. -/
structure CatalogPlan (R : SystemCatalogRoot) (bitmap : Block) (snapshot : List UInt8) (R' : SystemCatalogRoot)
    (bitmap' : Block) : Prop where
  nonempty : snapshot ≠ []
  size : snapshot.length ≤ systemCatalogMaxBytes
  extent : allocateInArena bitmap (R.systemStart, R.systemEnd) (blocksFor snapshot.length) = .ok R'.catalogStart
  generation : R.generation + 1 < 2 ^ 64
  root : R' = { R with
    generation := R.generation + 1, catalogStart := R'.catalogStart, catalogBlocks := blocksFor snapshot.length
    catalogBytes := snapshot.length, bitmapSlot := 1 - R.bitmapSlot }
  bitmap : bitmap' = replaceBits bitmap R'.catalogExtent R.catalogExtent

lemma CatalogPlan.unique {R1 R2 : SystemCatalogRoot} {b1 b2 : Block}
    (h1 : CatalogPlan R bitmap snapshot R1 b1) (h2 : CatalogPlan R bitmap snapshot R2 b2) : R1 = R2 ∧ b1 = b2 := by
  have hs : R1.catalogStart = R2.catalogStart := by simpa [h1.extent] using h2.extent
  have hR : R1 = R2 := by rw [h1.root, h2.root, hs]
  exact ⟨hR, by rw [h1.bitmap, h2.bitmap, hR]⟩

/-- A fresh extent in the place of an old one leaves a bitmap that fits: `kept` is the other published extent. -/
theorem bitmapOk_replaceBits (fresh old kept : Extent)
    (hb : BitmapOk R bitmap) (hv : R.Valid n) (hk : R.Kin R')
    (hfresh : ∀ i, fresh.Covers i → bitmapIsSet bitmap i = false) (hlo : R.systemStart ≤ fresh.start)
    (hhi : fresh.start + fresh.blocks ≤ R.systemEnd) (hold : ∀ i, old.Covers i → bitmapIsSet bitmap i)
    (holdn : old.start + old.blocks ≤ 32768)
    (hkept : ∀ i, kept.Covers i → bitmapIsSet bitmap i) (hapart : old.Disjoint kept) :
    (∀ i, bitmapIsSet (replaceBits bitmap fresh old) i → R'.systemStart ≤ i ∧ i < R'.packageEnd) ∧
      (∀ i, fresh.Covers i → bitmapIsSet (replaceBits bitmap fresh old) i) ∧
      (∀ i, kept.Covers i → bitmapIsSet (replaceBits bitmap fresh old) i) ∧ fresh.Disjoint kept := by
  have hn := hv.count_le
  have hend := hv.systemEnd_le
  have hmem : ∀ i, bitmapIsSet (replaceBits bitmap fresh old) i = true ↔
      ¬ old.Covers i ∧ (fresh.Covers i ∨ bitmapIsSet bitmap i = true) := bitmapIsSet_replaceBits (by omega) holdn
  obtain ⟨-, hg1, -, -, -, -, hg2⟩ := hk.geometry
  refine ⟨fun i hi => ?_, fun i hi => ?_, fun i hi => ?_, fun i hf hk => ?_⟩
  · rcases ((hmem i).mp hi).2 with ⟨h1, h2⟩ | hi
    · have := hv.packageEnd
      omega
    · have := hb.arena i hi
      omega
  · refine (hmem i).mpr ⟨fun ho => ?_, .inl hi⟩
    have := hold i ho
    rw [hfresh i hi] at this
    cases this
  · exact (hmem i).mpr ⟨fun ho => hapart i ho hi, .inr (hkept i hi)⟩
  · have := hkept i hk
    rw [hfresh i hf] at this
    cases this

lemma CatalogPlan.follows {bitmap' : Block}
    (h : CatalogPlan R bitmap snapshot R' bitmap') (hv : R.Valid n) (hb : BitmapOk R bitmap) :
    Follows n R R' ∧ BitmapOk R' bitmap' := by
  obtain ⟨hne, hsz, hext, hgen, hroot, rfl⟩ := h
  have hpos : 0 < snapshot.length := List.length_pos_iff.mpr hne
  obtain ⟨hb1, hb2, -⟩ := blocksFor_spec hpos
  obtain ⟨hlo, hhi, hfree⟩ := allocateInArena_spec (le_of_lt hv.system) hext
  have hkin : R.Kin R' := by rw [hroot]; rfl
  have hcat : R'.catalogExtent = ⟨R'.catalogStart, blocksFor snapshot.length⟩ := by
    unfold SystemCatalogRoot.catalogExtent; rw [hroot]
  have hmet : R'.metadataExtent = R.metadataExtent := by rw [hroot]; rfl
  have hcb := hv.catalog.bounds (by have := hv.systemEnd_le; have := hv.count_le; omega)
  obtain ⟨k1, k2, k3, k4⟩ := bitmapOk_replaceBits R'.catalogExtent R.catalogExtent R.metadataExtent
    hb hv hkin (by rw [hcat]; exact hfree) (by exact hlo) (by rw [hcat]; exact hhi)
    hb.catalog hcb.1 hb.metadata hb.apart
  refine ⟨⟨?_, hkin, by rw [hroot], by rw [hroot]⟩, ⟨k1, k2, by rw [hmet]; exact k3, by rw [hmet]; exact k4⟩⟩
  rw [hroot]
  exact hv.renewed hgen (by omega) (.inr ⟨hb1, hlo, hhi, hpos, hb2⟩) hv.metadata

/-- The bitmap that a volume at rest reads is that of its root. -/
theorem wp_readBitmap (h : VolumeOk s v) {Q : Block → σ → Prop} {E : CatalogError → σ → Prop}
    (hQ : ∀ s', Evolves noWrite s s' → Q (bitmapOf s v.root) s')
    (hE : ∀ b s', Evolves noWrite s s' → ¬ Healthy s → E (.block b) s') : wp (readBitmap v.root) Q E s := by
  rw [readBitmap, wp_io]
  refine wp_readBlock h.inv (fun b s' he hb => ?_) (fun e s' he hh => hE e s' he fun h' => hh h' h.valid.bitmapBlock_lt)
  rw [hb h.faithful_bitmap]
  exact hQ s' he

/-- The common course of `replace_catalog_inner` and `replace_metadata` once the size of the snapshot is accepted: the bitmap is
read, an extent of the system arena is allocated and written, and `systemCatalogRoot` of the next generation is published. -/
theorem wp_allocateAndPublish (old : Extent)
    (systemCatalogRoot : ℕ → ℕ → SystemCatalogRoot) (verifyData : SystemCatalogRoot → Op σ CatalogError Unit)
    (h : VolumeOk s v)
    (hplan : ∀ extent, allocateInArena (bitmapOf s v.root) (v.root.systemStart, v.root.systemEnd) blocks = .ok extent →
      v.root.generation + 1 < 2 ^ 64 → P (systemCatalogRoot (v.root.generation + 1) extent)
        (replaceBits (bitmapOf s v.root) ⟨extent, blocks⟩ old))
    (honly : ∀ R' bitmap', P R' bitmap' → ∃ extent,
      allocateInArena (bitmapOf s v.root) (v.root.systemStart, v.root.systemEnd) blocks = .ok extent ∧
        v.root.generation + 1 < 2 ^ 64)
    (hfollows : ∀ R' bitmap', P R' bitmap' → Follows (blockCount s) v.root R' ∧ BitmapOk R' bitmap')
    (hverify : ∀ extent generation (s' : σ), Inv s' → blockCount s' = blockCount s →
      HoldsChunks s' extent blocks snapshot → extent + blocks ≤ blockCount s →
      wp (verifyData (systemCatalogRoot generation extent)) (fun _ => Evolves noWrite s') (ReadFails s') s')
    (hdata : ∀ extent generation (s' : σ), HoldsChunks s' extent blocks snapshot →
      D s' (systemCatalogRoot generation extent)) :
    wp (do
        let bitmap ← readBitmap v.root
        let extent ← Op.lift (allocateInArena bitmap v.systemArena blocks)
        writeChunks extent snapshot blocks
        let generation ← Op.orFail (checkedAdd v.root.generation 1) .generationExhausted
        publish v (systemCatalogRoot generation extent) (replaceBits bitmap ⟨extent, blocks⟩ old)
          (verifyData (systemCatalogRoot generation extent))) (Published P D s v) (fun e => Failed P D s v e.IsIo) s := by
  have hnow : ∀ j c, noWrite j c → dataStart ≤ j := fun _ _ h => h.elim
  rw [wp_bind]
  refine wp_readBitmap h (fun s1 e1 => ?_) (fun b s1 e1 hh => ?_)
  swap
  · have h1 := h.evolves_noWrite e1
    exact ⟨(Spares.noWrite _ _).free e1, h1.held, .inl h1.settled, .inl ⟨⟨b, rfl⟩, hh⟩⟩
  rw [wp_bind, wp_lift]
  refine ⟨fun extent hext => ?_, fun e hext => ?_⟩
  swap
  · refine .refused h ?_ e1 (.noWrite _ _) hnow fun R' bm hp => ?_
    · rintro ⟨b, rfl⟩
      unfold allocateInArena at hext
      split at hext <;> cases hext
    · obtain ⟨x, hx, -⟩ := honly R' bm hp
      rw [show (v.root.systemStart, v.root.systemEnd) = v.systemArena from rfl, hext] at hx
      cases hx
  -- the extent is free in the system arena
  have h1 := h.evolves_noWrite e1
  have hbm : bitmapOf s1 v.root = bitmapOf s v.root := bitmapOf_evolves e1 (.noWrite _ _)
  have hend := h.valid.systemEnd_le
  obtain ⟨hlo, hhi, hfree⟩ := allocateInArena_spec (le_of_lt h.valid.system) hext
  have hfree' : ∀ i, (⟨extent, blocks⟩ : Extent).Covers i → ¬ Used s1 v.root i := by
    intro i hi hu
    rw [Used, hbm, hfree i hi] at hu
    cases hu
  have e1' : Evolves (freeWrites s v.root) s s1 := e1.of_noWrite _
  by_cases hgen : v.root.generation + 1 < 2 ^ 64
  · have hc : checkedAdd v.root.generation 1 = some (v.root.generation + 1) := if_pos hgen
    have hp := hplan extent hext hgen
    obtain ⟨hF, hb⟩ := hfollows _ _ hp
    have key := wp_writeAndPublish snapshot (verifyData (systemCatalogRoot (v.root.generation + 1) extent)) h1 hlo hhi hfree'
      (by rw [e1.count]; exact hF) hb fun s' hs' hn hc =>
        hverify extent _ s' hs' (hn.trans e1.count) hc (by omega)
    rw [hc]
    refine wp_mono key ?_ ?_
    · rintro v' s2 ⟨hr, hok, hbm', e2, hch⟩
      exact ⟨by rw [hr, hbm']; exact hp, hok, freeWrites_trans e1' e2, by rw [hr]; exact hdata _ _ _ hch⟩
    · rintro e s2 ⟨hbl, hh, e2, hheld, hst⟩
      refine ⟨freeWrites_trans e1' e2, hheld, hst.imp_right ?_, .inl ⟨hbl, fun h => hh (e1.healthy h)⟩⟩
      rintro ⟨hcm, hheld', hch⟩
      exact ⟨_, by rw [hcm.bitmap]; exact hp, hcm.state, hheld', hdata _ _ _ hch⟩
  · -- the generation is exhausted: the data is written and nothing is published
    have hc : checkedAdd v.root.generation 1 = none := if_neg hgen
    refine wp_step (wp_writeFree snapshot h1 hlo hhi hfree') ?_ ?_
    · rintro _ s2 ⟨h2, e2, -⟩
      rw [hc, wp_bind, wp_orFail]
      refine ⟨fun a ha => (by cases ha), fun _ => ?_⟩
      refine ⟨freeWrites_trans e1' e2, h2.held, .inl h2.settled, .inr ⟨?_, h2.settled, fun R' bm hp => ?_⟩⟩
      · rintro ⟨b, hb⟩
        cases hb
      · obtain ⟨-, -, hg⟩ := honly R' bm hp
        exact hgen hg
    · rintro e s2 ⟨hb, hh, h2, e2⟩
      exact ⟨freeWrites_trans e1' e2, h2.held, .inl h2.settled, .inl ⟨hb, fun h => hh (e1.healthy h)⟩⟩

lemma accepted_iff {limit : ℕ} : (!(snapshot.isEmpty || decide (snapshot.length > limit))) = true ↔
    snapshot ≠ [] ∧ snapshot.length ≤ limit := by
  simp

/-- **`replace_catalog_inner`.** -/
theorem wp_replaceCatalogInner (h : VolumeOk s v) (snapshot : List UInt8) :
    let P := CatalogPlan v.root (bitmapOf s v.root) snapshot
    let D : σ → SystemCatalogRoot → Prop := fun s' R' => HoldsChunks s' R'.catalogStart R'.catalogBlocks snapshot
    wp (v.replaceCatalogInner snapshot) (Published P D s v) (fun e => Failed P D s v e.IsIo) s := by
  refine wp_guard_seq (fun hg => ?_) fun hg => ?_
  · refine .refused_at_once h (by simp [CatalogError.IsIo]) fun R' bm hp => ?_
    exact Bool.eq_false_iff.mp hg (accepted_iff.mpr ⟨hp.nonempty, hp.size⟩)
  obtain ⟨hne, hsz⟩ := accepted_iff.mp hg
  obtain ⟨hb1, hb2, -⟩ := blocksFor_spec (List.length_pos_iff.mpr hne)
  have hb3 : blocksFor snapshot.length ≤ systemCatalogMaxBlocks := by
    unfold systemCatalogMaxBytes at hsz; unfold blocksFor blockBytes at *; omega
  refine wp_guard_seq (fun hg => ?_) fun _ => ?_
  · simp only [Bool.not_eq_false', Bool.or_eq_true, beq_iff_eq, decide_eq_true_eq] at hg
    omega
  refine wp_allocateAndPublish v.root.catalogExtent (fun generation extent => { v.root with
      generation := generation, catalogStart := extent, catalogBlocks := blocksFor snapshot.length
      catalogBytes := snapshot.length, bitmapSlot := 1 - v.root.bitmapSlot })
    (fun root => verifyCatalog root snapshot) h ?_ ?_ ?_ ?_ ?_
  · intro extent hext hgen
    exact ⟨hne, hsz, hext, hgen, rfl, rfl⟩
  · intro R' bm hp
    exact ⟨R'.catalogStart, hp.extent, hp.generation⟩
  · intro R' bm hp
    exact hp.follows h.valid h.held.bitmapOk
  · intro extent generation s' hs' hn hc hx
    exact wp_verifyCatalog hs' hc (by rw [hn]; exact hx)
  · exact fun extent generation s' hc => hc

/-! ## The metadata -/

/-- What `replace_metadata` publishes on a volume with the root `R` and the given bitmap. -/
structure MetadataPlan (R : SystemCatalogRoot) (bitmap : Block) (snapshot : List UInt8) (R' : SystemCatalogRoot)
    (bitmap' : Block) : Prop where
  nonempty : snapshot ≠ []
  size : snapshot.length ≤ maxRecordBytes
  extent : allocateInArena bitmap (R.systemStart, R.systemEnd) (blocksFor snapshot.length) = .ok R'.metadataStart
  generation : R.generation + 1 < 2 ^ 64
  root : R' = { R with
    generation := R.generation + 1, metadataStart := R'.metadataStart, metadataBlocks := blocksFor snapshot.length
    metadataBytes := snapshot.length, bitmapSlot := 1 - R.bitmapSlot }
  bitmap : bitmap' = replaceBits bitmap R'.metadataExtent R.metadataExtent

lemma MetadataPlan.unique {R1 R2 : SystemCatalogRoot} {b1 b2 : Block}
    (h1 : MetadataPlan R bitmap snapshot R1 b1) (h2 : MetadataPlan R bitmap snapshot R2 b2) : R1 = R2 ∧ b1 = b2 := by
  have hs : R1.metadataStart = R2.metadataStart := by simpa [h1.extent] using h2.extent
  have hR : R1 = R2 := by rw [h1.root, h2.root, hs]
  exact ⟨hR, by rw [h1.bitmap, h2.bitmap, hR]⟩

lemma MetadataPlan.follows {bitmap' : Block}
    (h : MetadataPlan R bitmap snapshot R' bitmap') (hv : R.Valid n) (hb : BitmapOk R bitmap) :
    Follows n R R' ∧ BitmapOk R' bitmap' := by
  obtain ⟨hne, hsz, hext, hgen, hroot, rfl⟩ := h
  have hpos : 0 < snapshot.length := List.length_pos_iff.mpr hne
  obtain ⟨hb1, hb2, -⟩ := blocksFor_spec hpos
  obtain ⟨hlo, hhi, hfree⟩ := allocateInArena_spec (le_of_lt hv.system) hext
  have hkin : R.Kin R' := by rw [hroot]; rfl
  have hmet : R'.metadataExtent = ⟨R'.metadataStart, blocksFor snapshot.length⟩ := by
    unfold SystemCatalogRoot.metadataExtent; rw [hroot]
  have hcat : R'.catalogExtent = R.catalogExtent := by rw [hroot]; rfl
  have hmb := hv.metadata.bounds (by have := hv.systemEnd_le; have := hv.count_le; omega)
  obtain ⟨k1, k2, k3, k4⟩ := bitmapOk_replaceBits R'.metadataExtent R.metadataExtent R.catalogExtent
    hb hv hkin (by rw [hmet]; exact hfree) (by exact hlo) (by rw [hmet]; exact hhi)
    hb.metadata hmb.1 hb.catalog hb.apart.symm
  refine ⟨⟨?_, hkin, by rw [hroot], by rw [hroot]⟩, ⟨k1, by rw [hcat]; exact k3, k2, by rw [hcat]; exact k4.symm⟩⟩
  rw [hroot]
  exact hv.renewed hgen (by omega) hv.catalog (.inr ⟨hb1, hlo, hhi, hpos, hb2⟩)

/-- **`replace_metadata`.** -/
theorem wp_replaceMetadata (h : VolumeOk s v) (snapshot : List UInt8) :
    let P := MetadataPlan v.root (bitmapOf s v.root) snapshot
    let D : σ → SystemCatalogRoot → Prop := fun s' R' => HoldsChunks s' R'.metadataStart R'.metadataBlocks snapshot
    wp (v.replaceMetadata snapshot) (Published P D s v) (fun e => Failed P D s v e.IsIo) s := by
  refine wp_guard_seq (fun hg => ?_) fun hg => ?_
  · refine .refused_at_once h (by simp [CatalogError.IsIo]) fun R' bm hp => ?_
    exact Bool.eq_false_iff.mp hg (accepted_iff.mpr ⟨hp.nonempty, hp.size⟩)
  obtain ⟨hne, hsz⟩ := accepted_iff.mp hg
  refine wp_allocateAndPublish v.root.metadataExtent (fun generation extent => { v.root with
      generation := generation, metadataStart := extent, metadataBlocks := blocksFor snapshot.length
      metadataBytes := snapshot.length, bitmapSlot := 1 - v.root.bitmapSlot })
    (fun root => verifyMetadata root snapshot) h ?_ ?_ ?_ ?_ ?_
  · intro extent hext hgen
    exact ⟨hne, hsz, hext, hgen, rfl, rfl⟩
  · intro R' bm hp
    exact ⟨R'.metadataStart, hp.extent, hp.generation⟩
  · intro R' bm hp
    exact hp.follows h.valid h.held.bitmapOk
  · intro extent generation s' hs' hn hc hx
    exact wp_verifyMetadata hs' hc (by rw [hn]; exact hx)
  · exact fun extent generation s' hc => hc

end LogOS.Storage.Catalog
