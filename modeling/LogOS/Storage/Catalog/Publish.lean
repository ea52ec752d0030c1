import LogOS.Storage.Catalog.Contents

/-!
# Publication of a new root

A publication of `R'` on a store whose root is `R` writes the blocks that `R` does not use, then the commit record and then
the other superblock.  `wp_publish` says where it can stop: before the commit record (the root is still `R`), between the
commit record and its flush (`Torn`), or after it (the root is `R'`), and in the last two cases everything that `R'` refers
to is durable.
-/

namespace LogOS.Storage.Catalog

open Lib SystemCatalogVolume Op

variable {σ : Type} [BlockStore σ] [LawfulStore σ] {s s' : σ} {R R' : SystemCatalogRoot}

/-- Reading back what is there already: no block is written again. -/
theorem wp_verifyBlock {i : ℕ} {b : Block} (n : ℕ) (hs : StoreModel.Inv s) (hv : view s i = b) (hi : i < blockCount s) :
    wp (verifyBlock i b (n + 1)) (fun _ => Evolves noWrite s) (ReadFails s) s := by
  rw [verifyBlock, wp_bind, wp_io]
  refine wp_readBlockUncached hs (fun s' he => ?_) (fun e s' he hh => ⟨he, ⟨e, rfl⟩, fun h => hh h hi⟩)
  rw [if_pos hv]
  exact he

/-- A loop of reads that finds what it expects. -/
theorem wp_verifyLoop {body : ℕ → Op σ CatalogError Unit} (n : ℕ)
    (hb : ∀ i s', Evolves noWrite s s' → i < n → wp (body i) (fun _ => Evolves noWrite s') (ReadFails s') s') :
    wp (forRange body 0 n) (fun _ => Evolves noWrite s) (ReadFails s) s := by
  refine wp_forRange (fun _ s' => Evolves noWrite s s') n 0 s (fun i s' _ hi he => ?_) (.refl _ _)
  refine wp_mono (hb i s' he (by omega)) (fun _ _ h => he.trans h) ?_
  rintro e s'' ⟨h, hb, hh⟩
  exact ⟨he.trans h, hb, fun h => hh (he.healthy h)⟩

/-- The commit record of `R'`, written over that of the root before the last. -/
theorem Anchored.commitWritten (h : Settled s R) (hv : R'.Valid (blockCount s)) (hk : R.Kin R')
    (hn : R'.generation = R.generation + 1)
    (he : Evolves (oneWrite (commitStart + R'.generation % 2) (encodeCommit R'.commitRecord)) s s')
    (hw : view s' (commitStart + R'.generation % 2) = encodeCommit R'.commitRecord) : Torn s' R R' := by
  have hdec : decodeCommit (encodeCommit R'.commitRecord) = .ok (some R'.commitRecord) :=
    decodeCommit_encodeCommit _ hv.fits.commitRecord
  have hold : ∀ i c, i ≠ commitStart + R'.generation % 2 → poss s' i c → poss s i c := fun i c hi hc =>
    (he.poss i c hc).resolve_right fun hw => hi hw.1
  have hlow : ∀ i < 2, i ≠ commitStart + R'.generation % 2 := by unfold commitStart; omega
  have hsup : ∀ i < 2, ∀ c, poss s' i c → ∃ r, decodeRoot c = .ok (some r) ∧ r.Valid (blockCount s) ∧ r.Kin R ∧
      (r.generation < R.generation ∨ r = R) := by
    intro i hi c hc
    obtain ⟨r, hd, hrv, hrk, hr⟩ := h.superblock i hi c (hold i c (hlow i hi) hc)
    exact ⟨r, hd, hrv, hrk, hr.imp_right fun h => h.elim id id⟩
  refine ⟨⟨?_, ?_, hk, .inr hn, ?_, ?_, ?_⟩, hn, by rw [hw]; exact hdec, ?_⟩
  · rw [he.count]; exact h.valid
  · rw [he.count]; exact hv
  · intro i hi c hc
    obtain ⟨r, hd, hrv, hrk, hr⟩ := hsup i hi c hc
    exact ⟨r, hd, by rw [he.count]; exact hrv, hrk, hr.imp_right .inl⟩
  · intro k hk c hc
    rcases he.poss _ c hc with hc | ⟨hk', rfl⟩
    · refine (h.commitSlot k hk c hc).imp_right fun ⟨m, hd, hpar, hm⟩ => ⟨m, hd, hpar, hm.imp_right fun h => .inl (h.elim id id)⟩
    · exact .inr ⟨_, hdec, by show R'.generation % 2 = k; omega, .inr (.inr rfl)⟩
  · rcases h.anchor with ha | ha
    · exact .inl fun c hc => ha c (hold _ c (by omega) hc)
    · exact .inr fun i hi c hc => (ha i hi c (hold i c (hlow i hi) hc)).elim .inl .inl
  · intro i hi c hc r hd
    obtain ⟨r', hd', -, -, hr⟩ := hsup i hi c hc
    obtain rfl : r' = r := by rw [hd] at hd'; simpa using hd'.symm
    rcases hr with hr | rfl <;> omega

lemma Torn.evolves_noWrite (h : Torn s R R') (he : Evolves noWrite s s') : Torn s' R R' where
  anchored := h.anchored.evolves (.noWrite R R') he
  next := h.next
  seen := by rw [he.view_eq_of_noWrite]; exact h.seen
  behind i hi c hc := h.behind i hi c ((he.poss i c hc).resolve_right id)

/-- The new bitmap, and the records in front of the data. -/
def publishWrites (R' : SystemCatalogRoot) (bitmap : Block) : ℕ → Block → Prop :=
  fun j c => (j = bitmapBlock R' ∧ c = bitmap) ∨ j < dataStart

/-- The new root follows the old one in the same volume, with its bitmap in the other slot. -/
structure Follows (n : ℕ) (R R' : SystemCatalogRoot) : Prop where
  valid : R'.Valid n
  kin : R.Kin R'
  generation : R'.generation = R.generation + 1
  bitmapSlot : R'.bitmapSlot = 1 - R.bitmapSlot

/-- The new root is published as far as its commit record: everything it refers to is durable. -/
structure Committed (s' : σ) (R R' : SystemCatalogRoot) (bitmap : Block) : Prop where
  stable : ∀ i, dataStart ≤ i → Stable s' i
  bitmap : bitmapOf s' R' = bitmap
  state : Torn s' R R' ∨ Settled s' R'

/-- **Publication.** -/
theorem wp_publish {v : SystemCatalogVolume} {bitmap : Block} {verifyData : Op σ CatalogError Unit}
    (ha : v.activeSuperblock < 2) (hs : StoreModel.Inv s) (h : Settled s R)
    (hF : Follows (blockCount s) R R')
    (hverify : ∀ s', Evolves (oneWrite (bitmapBlock R') bitmap) s s' →
      wp verifyData (fun _ => Evolves noWrite s') (ReadFails s') s') :
    wp (publish v R' bitmap verifyData)
      (fun v' s' => v'.root = R' ∧ v'.activeSuperblock < 2 ∧ Evolves (publishWrites R' bitmap) s s' ∧ Settled s' R' ∧
        bitmapOf s' R' = bitmap ∧ ∀ i, Stable s' i)
      (fun e s' => (∃ b, e = .block b) ∧ ¬ Healthy s ∧ Evolves (publishWrites R' bitmap) s s' ∧
        (Settled s' R ∨ Committed s' R R' bitmap)) s := by
  have hn := h.valid.records_lt
  have hbb : bitmapBlock R' < blockCount s := by
    have := hF.valid.bitmapStart; have := hF.valid.bitmapSlot; unfold bitmapBlock; omega
  have hbd : dataStart ≤ bitmapBlock R' := by
    have := hF.valid.bitmapStart; unfold bitmapBlock dataStart commitStart commitSlots; omega
  have hWb : ∀ j c, oneWrite (bitmapBlock R') bitmap j c → publishWrites R' bitmap j c := fun _ _ h => .inl h
  have hharm : Harmless R R (oneWrite (bitmapBlock R') bitmap) := by
    rintro j c ⟨rfl, -⟩
    exact .inr hbd
  -- up to the commit record, a failure leaves the old root
  have hstop : ∀ {s'}, Evolves (oneWrite (bitmapBlock R') bitmap) s s' →
      Evolves (publishWrites R' bitmap) s s' ∧ (Settled s' R ∨ Committed s' R R' bitmap) := fun e =>
    ⟨e.mono hWb, .inl (h.evolves hharm e)⟩
  unfold publish
  -- the bitmap goes to the other slot
  rw [wp_bind, writeBitmap, wp_io]
  refine wp_writeBlock hs (fun s1 e1 hv1 => ?_) (fun e s1 e1 hh => ⟨⟨e, rfl⟩, fun h => hh h hbb, hstop (e1.of_noWrite _)⟩)
  rw [wp_bind, wp_io]
  refine wp_flush (e1.inv hs) (fun s2 e2 hst2 => ?_)
    (fun e s2 e2 hh => ⟨⟨e, rfl⟩, fun h => hh (e1.healthy h), hstop (e1.trans (e2.of_noWrite _))⟩)
  have e2' := e1.trans (e2.of_noWrite _)
  have hv2 : bitmapOf s2 R' = bitmap := by rw [bitmapOf, e2.view_eq_of_noWrite, hv1]
  -- it is read back together with the data
  refine wp_step (hverify s2 e2') (fun _ s3 e3 => ?_) (fun e s3 => ?_)
  swap
  · rintro ⟨e3, hb, hh⟩
    exact ⟨hb, fun h => hh (e2'.healthy h), hstop (e2'.trans (e3.of_noWrite _))⟩
  have e3' := e2'.trans (e3.of_noWrite _)
  have hv3 : view s3 (bitmapBlock R') = bitmap := by rw [e3.view_eq_of_noWrite]; exact hv2
  rw [wp_bind, verifyBitmap]
  refine wp_mono (wp_verifyBlock 2 (e3'.inv hs) hv3 (by rw [e3'.count]; exact hbb)) (fun _ s4 e4 => ?_) (fun e s4 => ?_)
  swap
  · rintro ⟨e4, hb, hh⟩
    exact ⟨hb, fun h => hh (e3'.healthy h), hstop (e3'.trans (e4.of_noWrite _))⟩
  have e4' := e3'.trans (e4.of_noWrite _)
  have hset4 : Settled s4 R := h.evolves hharm e4'
  have hst4 : ∀ i, Stable s4 i := fun i => (hst2 i).evolves (e3.trans e4) fun _ => id
  have hv4 : bitmapOf s4 R' = bitmap := by rw [bitmapOf, e4.view_eq_of_noWrite, hv3]
  -- the commit record
  have hslot : commitStart + R'.generation % commitSlots < dataStart := by
    unfold dataStart commitStart commitSlots; omega
  rw [wp_bind, writeCommit, wp_io]
  refine wp_writeBlock (e4'.inv hs) (fun s5 e5 hv5 => ?_)
    (fun e s5 e5 hh => ⟨⟨e, rfl⟩, fun h => hh (e4'.healthy h) ?_, hstop (e4'.trans (e5.of_noWrite _))⟩)
  swap
  · rw [e4'.count]; unfold dataStart commitStart commitSlots at *; omega
  have htorn : Torn s5 R R' := Anchored.commitWritten hset4 (by rw [e4'.count]; exact hF.valid) hF.kin hF.generation e5 hv5
  have hdata5 : ∀ i, dataStart ≤ i → ∀ c,
      ¬ oneWrite (commitStart + R'.generation % commitSlots) (encodeCommit R'.commitRecord) i c := by
    rintro i hi c ⟨rfl, -⟩; omega
  have hst5 : ∀ i, dataStart ≤ i → Stable s5 i := fun i hi => (hst4 i).evolves e5 (hdata5 i hi)
  have hv5' : bitmapOf s5 R' = bitmap := by rw [bitmapOf, e5.view_eq (hdata5 _ hbd)]; exact hv4
  have e5' : Evolves (publishWrites R' bitmap) s s5 :=
    (e4'.mono hWb).trans (e5.mono (by rintro j c ⟨rfl, -⟩; exact .inr hslot))
  rw [wp_bind, wp_io]
  refine wp_flush (e5'.inv hs) (fun s6 e6 hst6 => ?_)
    (fun e s6 e6 hh => ⟨⟨e, rfl⟩, fun h => hh (e5'.healthy h), e5'.trans (e6.of_noWrite _), .inr ⟨?_, ?_, .inl ?_⟩⟩)
  rotate_left
  · exact fun i hi => (hst5 i hi).evolves e6 fun _ => id
  · rw [bitmapOf, e6.view_eq_of_noWrite]; exact hv5'
  · exact htorn.evolves_noWrite e6
  have e6' := e5'.trans (e6.of_noWrite _)
  have hset6 : Settled s6 R' := by
    refine (htorn.anchored.evolves (.noWrite R R') e6).advance fun c hc => ?_
    rw [hst6 _ c hc, e6.view_eq_of_noWrite]
    exact htorn.seen
  have hv6 : bitmapOf s6 R' = bitmap := by rw [bitmapOf, e6.view_eq_of_noWrite]; exact hv5'
  -- the other superblock
  have ht : (if v.activeSuperblock = 0 then superblockB else superblockA) < 2 := by
    unfold superblockA superblockB; split <;> omega
  have hWs : ∀ j c, superWrites R' j c → publishWrites R' bitmap j c := by
    rintro j c ⟨hj, -⟩
    exact .inr (by unfold dataStart commitStart commitSlots; omega)
  have hsup : ∀ s7, Evolves (superWrites R') s6 s7 → bitmapOf s7 R' = bitmap := fun s7 e7 => by
    rw [bitmapOf, e7.view_eq fun c hw => by have := hw.1; unfold dataStart commitStart commitSlots at hbd; omega]
    exact hv6
  refine wp_installSuperblock R' (e6'.inv hs) ht (by rw [e6'.count]; omega) (fun s7 e7 hst7 _ => ?_) (fun b s7 e7 hh => ?_)
  · refine ⟨rfl, ?_, e6'.trans (e7.mono hWs), hset6.evolves (.superWrites (.inl rfl)) e7, hsup s7 e7, hst7⟩
    show v.activeSuperblock ^^^ 1 < 2
    interval_cases v.activeSuperblock <;> decide
  · refine ⟨⟨b, rfl⟩, fun h => hh (e6'.healthy h), e6'.trans (e7.mono hWs),
      .inr ⟨fun i hi => (hst6 i).evolves e7 ?_, hsup s7 e7, .inr (hset6.evolves (.superWrites (.inl rfl)) e7)⟩⟩
    rintro c ⟨hj, -⟩
    unfold dataStart commitStart commitSlots at hi
    omega

/-! ## Volumes at rest -/

/-- Any writes to blocks that the root neither uses nor keeps its bitmap in. -/
def freeWrites (s : σ) (R : SystemCatalogRoot) : ℕ → Block → Prop := fun j _ => j ≠ bitmapBlock R ∧ ¬ Used s R j

/-- **A volume at rest**: the store is decided for its root, and everything the root refers to is durable.  Cached reads are
to be trusted outside of the user arena only, since that is where clients map blocks. -/
structure VolumeOk (s : σ) (v : SystemCatalogVolume) : Prop where
  inv : StoreModel.Inv s
  settled : Settled s v.root
  held : Held s v.root
  active : v.activeSuperblock < 2
  faithful : ∀ i, i < v.root.userStart ∨ v.root.userEnd ≤ i → faithful s i

variable {s'' : σ} {v : SystemCatalogVolume} {W : ℕ → Block → Prop} {bitmap : Block}

lemma Spares.ofFree (s : σ) (R : SystemCatalogRoot) : Spares s R (freeWrites s R) := fun _ _ h => h

lemma Spares.free (hW : Spares s R W) (h : Evolves W s s') : Evolves (freeWrites s R) s s' := h.mono hW

lemma freeWrites_trans (h : Evolves (freeWrites s R) s s') (h' : Evolves (freeWrites s' R) s' s'') :
    Evolves (freeWrites s R) s s'' := by
  refine h.trans (h'.mono fun j c hw => ⟨hw.1, fun hu => hw.2 ?_⟩)
  rwa [used_evolves h (.ofFree s R)]

section

variable (h : VolumeOk s v)
include h

lemma VolumeOk.valid : v.root.Valid (blockCount s) := h.settled.valid

/-- A volume at rest stays so while blocks it does not use are written. -/
theorem VolumeOk.evolves (he : Evolves W s s') (hW : Spares s v.root W)
    (hd : ∀ j c, W j c → dataStart ≤ j) : VolumeOk s' v where
  inv := he.inv h.inv
  settled := h.settled.evolves (fun j c hw => .inr (hd j c hw)) he
  held := h.held.evolves he hW
  active := h.active
  faithful i hi := he.faithful i (h.faithful i hi)

lemma VolumeOk.evolves_noWrite (he : Evolves noWrite s s') : VolumeOk s' v :=
  h.evolves he (.noWrite _ _) fun _ _ h => h.elim

/-- The records of the volume are read through the cache, and faithfully. -/
theorem VolumeOk.faithful_records : ∀ i < 4, StoreModel.faithful s i := fun i hi =>
  h.faithful i (.inl (by
    have := h.valid.userStart; have := h.valid.system; have := h.valid.systemStart
    unfold dataStart commitStart commitSlots at *; omega))

lemma VolumeOk.faithful_bitmap : StoreModel.faithful s (bitmapBlock v.root) :=
  h.faithful _ (.inr (by
    have := h.valid.bitmapStart; have := h.valid.packageEnd; have := h.valid.package; have := h.valid.packageStart
    unfold bitmapBlock; omega))

end

lemma SystemCatalogRoot.Valid.bitmapBlock_lt {n : ℕ} (h : R.Valid n) : bitmapBlock R < n := by
  have := h.bitmapStart; have := h.bitmapSlot
  unfold bitmapBlock; omega

lemma SystemCatalogRoot.Valid.dataStart_le_bitmapBlock {n : ℕ} (h : R.Valid n) : dataStart ≤ bitmapBlock R := by
  have := h.bitmapStart; have := h.records_lt
  unfold bitmapBlock dataStart commitStart commitSlots; omega

lemma publishWrites_spares (h : Held s R) (hv : R.Valid (blockCount s)) (hF : Follows (blockCount s) R R') :
    Spares s R (publishWrites R' bitmap) := by
  rintro j c (⟨rfl, -⟩ | hj)
  · -- the bitmap of the next root goes to the other slot, which is behind the arenas
    have hstart := hv.bitmapStart; have hstart' := hF.valid.bitmapStart
    refine ⟨?_, fun hu => ?_⟩
    · have := hF.bitmapSlot; unfold bitmapBlock; omega
    · have harena := h.bitmapOk.arena _ hu; have := hv.packageEnd
      unfold bitmapBlock at harena; omega
  · refine ⟨by have := hv.dataStart_le_bitmapBlock; omega, fun hu => ?_⟩
    have := h.bitmapOk.arena j hu; have := hv.systemStart
    omega

/-- Once everything behind the records is durable, so is everything a root refers to. -/
theorem held_of_stable {n : ℕ} (hv : R.Valid n) (hb : BitmapOk R (bitmapOf s R))
    (hst : ∀ i, dataStart ≤ i → Stable s i) : Held s R where
  bitmapOk := hb
  bitmap := hst _ hv.dataStart_le_bitmapBlock
  used i hi := hst i (by have := hb.arena i hi; have := hv.systemStart; omega)

/-- Where a publication that failed has left the store. -/
def Stopped (s : σ) (R R' : SystemCatalogRoot) (bitmap : Block) : Prop :=
  Settled s R ∨ (Committed s R R' bitmap ∧ Held s R')

/-- **Publication on a volume at rest.**  The blocks behind the records keep their content, but for the new bitmap. -/
theorem wp_publish_volume {verifyData : Op σ CatalogError Unit} (h : VolumeOk s v)
    (hF : Follows (blockCount s) v.root R') (hb : BitmapOk R' bitmap)
    (hverify : ∀ s', Evolves (oneWrite (bitmapBlock R') bitmap) s s' →
      wp verifyData (fun _ => Evolves noWrite s') (ReadFails s') s') :
    wp (publish v R' bitmap verifyData)
      (fun v' s' => v'.root = R' ∧ VolumeOk s' v' ∧ bitmapOf s' R' = bitmap ∧ Evolves (publishWrites R' bitmap) s s')
      (fun e s' => (∃ b, e = .block b) ∧ ¬ Healthy s ∧ Evolves (publishWrites R' bitmap) s s' ∧
        Held s' v.root ∧ Stopped s' v.root R' bitmap) s := by
  have hg := hF.kin.geometry
  refine wp_mono (wp_publish h.active h.inv h.settled hF hverify) ?_ ?_
  · rintro v' s' ⟨rfl, ha, he, hset, hbm, hst⟩
    refine ⟨rfl, ⟨he.inv h.inv, hset, ?_, ha, fun i hi => he.faithful i (h.faithful i ?_)⟩, hbm, he⟩
    · exact held_of_stable hF.valid (by rw [hbm]; exact hb) fun i _ => hst i
    · rw [hg.2.2.2.1, hg.2.2.2.2.1]; exact hi
  · rintro e s' ⟨hb', hh, he, hstop⟩
    exact ⟨hb', hh, he, h.held.evolves he (publishWrites_spares h.held h.valid hF),
      hstop.imp_right fun hc => ⟨hc, held_of_stable hF.valid (by rw [hc.bitmap]; exact hb) hc.stable⟩⟩

end LogOS.Storage.Catalog
