import LogOS.Storage.Catalog.Transaction
import LogOS.Storage.CrashStore

/-!
# Formatting a store

`format` checks that every block is zero, so that there is no commit record to be found, and leaves the first root in
both superblocks: the volume it returns is at rest, with nothing published and no block in use.  `format_provisioned` looks
at the first block only, and a commit record that it leaves in its slot is found by the next `open`.
-/

namespace LogOS.Storage.Catalog

open Lib SystemCatalogVolume Op StoreModel CrashStore List Block

lemma eq_zero_of_all {b : Block} (h : b.toList.all (· == 0) = true) : b = zero := by
  rw [all_eq_true] at h
  refine Bytes.ext_byteAt fun i hi => ?_
  rw [zero, Bytes.byteAt_eq_getElem _ hi]
  simpa using h b[i] (by simp)

lemma all_zero : (zero).toList.all (· == 0) = true := by
  rw [all_eq_true]
  intro x hx
  obtain ⟨i, hi, rfl⟩ := mem_iff_getElem.mp hx
  simp [zero, Bytes.zeros]

/-- The pools that `format` accepts. -/
structure PoolsOk (n systemBlocks packageStart : ℕ) : Prop where
  capacity : 6 < n
  capacity' : n ≤ 32768
  system : 0 < systemBlocks
  user : dataStart + systemBlocks < packageStart
  package : packageStart + 2 < n

/-- The first root of a volume. -/
def firstRoot (n systemBlocks packageStart : ℕ) : SystemCatalogRoot where
  generation := 1
  metadataStart := 0
  metadataBlocks := 0
  metadataBytes := 0
  catalogStart := 0
  catalogBlocks := 0
  catalogBytes := 0
  bitmapSlot := 0
  bitmapStart := n - 2
  bitmapBlocks := 1
  systemStart := dataStart
  systemEnd := dataStart + systemBlocks
  userStart := dataStart + systemBlocks
  userEnd := packageStart
  packageStart := packageStart
  packageEnd := n - 2

section Pools

variable {n systemBlocks packageStart : ℕ}

lemma PoolsOk.valid (h : PoolsOk n systemBlocks packageStart) : (firstRoot n systemBlocks packageStart).Valid n := by
  obtain ⟨h1, h2, h3, h4, h5⟩ := h
  refine ⟨h2, ?_, ?_, ?_, rfl, ?_, ?_, rfl, ?_, rfl, h4, rfl, ?_, .inl ⟨rfl, rfl, rfl⟩, .inl ⟨rfl, rfl, rfl⟩⟩ <;>
    simp only [firstRoot] <;> omega

lemma validateCapacity_ok {d : ℕ} (h : validateCapacity n = .ok d) : 6 < n ∧ n ≤ 32768 ∧ d = n - 2 := by
  unfold validateCapacity dataStart commitStart commitSlots maxBlockCount cowMaxBitmapBlocks blockBytes at h
  split_ifs at h with h1 h2
  exact ⟨by omega, by omega, (Except.ok.inj h).symm⟩

lemma validatePools_ok (hn : 6 < n) (hn' : n ≤ 32768)
    (h : validatePools n (n - 2) systemBlocks packageStart = .ok ()) : PoolsOk n systemBlocks packageStart := by
  unfold validatePools at h
  cases hc : checkedAdd dataStart systemBlocks with
  | none => rw [hc] at h; cases h
  | some e =>
    rw [hc] at h
    obtain ⟨-, rfl⟩ := checkedAdd_eq_some.mp hc
    dsimp only at h
    split_ifs at h with h1
    exact ⟨hn, hn', by omega, by omega, by omega⟩

section

variable (h : PoolsOk n systemBlocks packageStart)
include h

lemma PoolsOk.checkedAdd_eq : checkedAdd dataStart systemBlocks = some (dataStart + systemBlocks) := by
  have := h.user; have := h.package; have := h.capacity'
  exact checkedAdd_eq_some.mpr ⟨by omega, rfl⟩

lemma PoolsOk.validatePools_eq : validatePools n (n - 2) systemBlocks packageStart = .ok () := by
  have h1 := h.system; have h2 := h.user; have h3 := h.package
  unfold validatePools
  rw [h.checkedAdd_eq]
  dsimp only
  rw [if_neg (by omega)]

lemma PoolsOk.emptyRoot_eq :
    emptyRoot n (n - 2) systemBlocks packageStart = .ok (firstRoot n systemBlocks packageStart) := by
  unfold emptyRoot
  rw [h.checkedAdd_eq]
  rw [h.validatePools_eq]
  rfl

end

end Pools

section Format

variable {σ : Type} [BlockStore σ] [LawfulStore σ] {s : σ}

lemma wp_ensureBlank (hs : Inv s) (hf : ∀ i, faithful s i) (hn : 0 < blockCount s) :
    wp (ensureBlank false)
      (fun _ s' => Evolves noWrite s s' ∧ ∀ i < blockCount s, view s i = zero)
      (fun _ s' => Evolves noWrite s s' ∧ ¬ (Healthy s ∧ ∀ i, view s i = zero)) s := by
  unfold ensureBlank
  rw [wp_bind, wp_io]
  refine wp_readBlock hs (fun b s1 e1 _ => ?_) (fun e s1 e1 hh => ⟨e1, fun h => hh h.1 hn⟩)
  simp only [Bool.false_eq_true, if_false]
  rw [wp_bind, wp_get, e1.count]
  have hloop := wp_forRange (σ := σ)
    (f := fun index => do
      let block ← io (readBlock index)
      if ¬ block.toList.all (· == 0) then Op.fail CatalogError.notBlank else Op.ret ())
    (fun n s' => Evolves noWrite s s' ∧ ∀ i < n, view s i = zero)
    (E := fun _ s' => Evolves noWrite s s' ∧ ¬ (Healthy s ∧ ∀ i, view s i = zero)) (blockCount s) 0 s1 ?_
    ⟨e1, fun i hi => by omega⟩
  · simpa using hloop
  rintro i s' - hi ⟨he, hz⟩
  rw [wp_bind, wp_io]
  refine wp_readBlock (he.inv hs) (fun b s'' he' hb => ?_)
    (fun e s'' he' hh => ⟨he.trans he', fun h => hh (he.healthy h.1) (by rw [he.count]; omega)⟩)
  have hb : b = view s i := by rw [hb (he.faithful _ (hf i)), he.view_eq_of_noWrite]
  rw [wp_ite]
  refine ⟨fun hnz => ⟨he.trans he', fun h => hnz ?_⟩, fun hz' => ⟨he.trans he', fun j hj => ?_⟩⟩
  · rw [hb, h.2 i, all_zero]
  · rcases Nat.lt_succ_iff_lt_or_eq.mp hj with hj | rfl
    · exact hz j hj
    · rw [← hb]; exact eq_zero_of_all (by simpa using hz')

/-- What formatting leaves on a store: the root in both superblocks, an empty bitmap, and the commit slots as they were. -/
structure Formatted (s : σ) (R : SystemCatalogRoot) (s' : σ) : Prop where
  inv : StoreModel.Inv s'
  count : blockCount s' = blockCount s
  healthy : Healthy s → Healthy s'
  faithful : ∀ i, faithful s' i
  stable : ∀ i, Stable s' i
  superblock : ∀ i < 2, view s' i = encodeRoot R
  bitmap : bitmapOf s' R = Block.zero
  commitSlot : ∀ k < 2, view s' (commitStart + k) = view s (commitStart + k)

/-- **`format_inner`**, where `A` is what `ensure_blank` asks for and `Z` what it has found. -/
theorem wp_formatInner {provisioned : Bool} {A Z : Prop} (systemBlocks packageStart : ℕ) (hs : Inv s)
    (hf : ∀ i, faithful s i) (hblank : 0 < blockCount s → wp (ensureBlank provisioned) (fun _ s' => Evolves noWrite s s' ∧ Z)
      (fun _ _ => ¬ (Healthy s ∧ A)) s) :
    wp (formatInner systemBlocks packageStart provisioned)
      (fun v s' => v = ⟨firstRoot (blockCount s) systemBlocks packageStart, 1⟩ ∧ PoolsOk (blockCount s) systemBlocks packageStart ∧
        Z ∧ Formatted s v.root s') (fun _ _ => ¬ (Healthy s ∧ A ∧ PoolsOk (blockCount s) systemBlocks packageStart)) s := by
  unfold formatInner
  rw [wp_bind, wp_get, wp_bind, wp_lift]
  refine ⟨fun d hd => ?_, fun e he h => ?_⟩
  swap
  · rw [h.2.2.valid.validateCapacity_eq] at he
    cases he
  obtain ⟨hn, hn', rfl⟩ := validateCapacity_ok hd
  rw [wp_bind, wp_lift]
  refine ⟨fun _ hp => ?_, fun e he h => ?_⟩
  swap
  · rw [h.2.2.validatePools_eq] at he
    cases he
  have hpools := validatePools_ok hn hn' hp
  have hv := hpools.valid
  refine wp_step (hblank (by omega)) ?_ (fun e s' h h' => h ⟨h'.1, h'.2.1⟩)
  rintro _ s1 ⟨e1, hz⟩
  rw [wp_bind, wp_lift, hpools.emptyRoot_eq]
  refine ⟨fun R hR => ?_, nofun⟩
  obtain rfl := Except.ok.inj hR
  -- the empty bitmap
  rw [wp_bind, writeBitmap, wp_io]
  refine wp_writeBlock (e1.inv hs) (fun s2 e2 hv2 => ?_)
    (fun e s2 e2 hh h => hh (e1.healthy h.1) (by rw [e1.count]; exact hv.bitmapBlock_lt))
  rw [wp_bind, wp_io]
  refine wp_flush (e2.inv (e1.inv hs)) (fun s3 e3 hst3 => ?_) (fun e s3 e3 hh h => hh (e2.healthy (e1.healthy h.1)))
  have hs3 := e3.inv (e2.inv (e1.inv hs))
  have hc3 : blockCount s3 = blockCount s := by rw [e3.count, e2.count, e1.count]
  have hh3 : Healthy s → Healthy s3 := fun h => e3.healthy (e2.healthy (e1.healthy h))
  -- the two superblocks
  refine wp_installSuperblock _ hs3 (by decide) (by unfold superblockA; omega) (fun s4 e4 hst4 hA => ?_)
    (fun b s4 e4 hh h => hh (hh3 h.1))
  refine wp_installSuperblock _ (e4.inv hs3) (by decide) (by rw [e4.count]; unfold superblockB; omega)
    (fun s5 e5 hst5 hB => ?_) (fun b s5 e5 hh h => hh (e4.healthy (hh3 h.1)))
  have e5' := e4.trans e5
  have hview : ∀ i, 2 ≤ i → view s5 i = view s2 i := fun i hi => by
    rw [e5'.view_eq fun c hw => by have := hw.1; omega, e3.view_eq_of_noWrite]
  have hdata := hv.dataStart_le_bitmapBlock
  unfold dataStart commitStart commitSlots at hdata
  refine ⟨rfl, hpools, hz, e5'.inv hs3, by rw [e5'.count, hc3], fun h => e5'.healthy (hh3 h),
    fun i => e5'.faithful i (e3.faithful i (e2.faithful i (e1.faithful i (hf i)))), hst5, fun i hi => ?_, ?_, fun k hk => ?_⟩
  · interval_cases i
    · rcases e5.view 0 with h | h
      · rw [h]; exact hA
      · exact h.2
    · exact hB
  · rw [bitmapOf, hview _ (by dsimp only; omega)]
    exact hv2
  · rw [hview _ (by unfold commitStart; omega), e2.view_eq, e1.view_eq_of_noWrite]
    rintro c ⟨h, -⟩
    unfold commitStart at h
    omega

/-- **`format`.** -/
theorem wp_format (systemBlocks packageStart : ℕ) (hs : Inv s) (hf : ∀ i, faithful s i) :
    wp (format systemBlocks packageStart)
      (fun v s' => v.root = firstRoot (blockCount s) systemBlocks packageStart ∧ VolumeOk s' v ∧
        bitmapOf s' v.root = zero ∧ (∀ i, faithful s' i) ∧ blockCount s' = blockCount s ∧
        PoolsOk (blockCount s) systemBlocks packageStart ∧ (Healthy s → Healthy s') ∧ ∀ i, Stable s' i)
      (fun _ _ => ¬ (Healthy s ∧ (∀ i, view s i = zero) ∧ PoolsOk (blockCount s) systemBlocks packageStart)) s := by
  refine wp_mono (wp_formatInner systemBlocks packageStart hs hf fun hn => wp_mono (wp_ensureBlank hs hf hn)
    (fun _ _ h => h) fun _ _ h => h.2) ?_ (fun _ _ h => h)
  rintro v s' ⟨rfl, hpools, hz, h⟩
  have hv := hpools.valid
  have hdata := hv.dataStart_le_bitmapBlock
  have hlt := hv.bitmapBlock_lt
  set R := firstRoot (blockCount s) systemBlocks packageStart with hRdef
  have hdec : decodeRoot (encodeRoot R) = .ok (some R) := decodeRoot_encodeRoot R hv.fits
  have hset : Settled s' R := by
    refine ⟨by rw [h.count]; exact hv, by rw [h.count]; exact hv, .refl R, .inl rfl, fun i hi c hc => ?_, fun k hk c hc => ?_,
      .inr fun i hi c hc => ?_⟩
    · rw [h.stable i c hc, h.superblock i hi]
      exact ⟨R, hdec, by rw [h.count]; exact hv, .refl R, .inr (.inl rfl)⟩
    · rw [h.stable _ c hc, h.commitSlot k hk, hz _ (by unfold dataStart commitSlots at hdata; omega)]
      exact .inl decodeCommit_zero
    · rw [h.stable i c hc, h.superblock i hi]
      exact .inl hdec
  have hbm : BitmapOk R (bitmapOf s' R) := by
    rw [h.bitmap]
    refine ⟨fun i hi => ?_, fun i hi => ?_, fun i hi => ?_, fun i hi => ?_⟩
    · rw [bitmapIsSet_zero] at hi
      cases hi
    · exact absurd hi.2 (not_lt.mpr hi.1)
    · exact absurd hi.2 (not_lt.mpr hi.1)
    · exact absurd hi.2 (not_lt.mpr hi.1)
  exact ⟨rfl, ⟨h.inv, hset, held_of_stable hv hbm fun i _ => h.stable i, Nat.one_lt_two, fun i _ => h.faithful i⟩, h.bitmap,
    h.faithful, h.count, hpools, h.healthy, h.stable⟩

/-- Formatting a healthy blank store succeeds. -/
theorem exists_format {systemBlocks packageStart : ℕ} (hs : Inv s) (hf : ∀ i, faithful s i) (hh : Healthy s)
    (hz : ∀ i, view s i = zero) (hp : PoolsOk (blockCount s) systemBlocks packageStart) :
    ∃ v s', format systemBlocks packageStart s = (.ok v, s') ∧ v.root = firstRoot (blockCount s) systemBlocks packageStart ∧
      VolumeOk s' v ∧ bitmapOf s' v.root = zero ∧ Healthy s' := by
  obtain ⟨v, s', he, hr, hok, hbm, -, -, -, hh', -⟩ := exists_ok_of_wp (wp_format systemBlocks packageStart hs hf)
    fun e s' h => h ⟨hh, hz, hp⟩
  exact ⟨v, s', he, hr, hok, hbm, hh' hh⟩

/-! ## Provisioned disks -/

/-- The block that marks a disk as provisioned. -/
def Provisioned (b : Block) : Prop := slice b.toList 0 8 = cowProvisionedBlankMagic ∧ (b.toList.drop 8).all (· == 0) = true

lemma wp_ensureBlank_provisioned (hs : Inv s) (hf : ∀ i, faithful s i) (hn : 0 < blockCount s) :
    wp (ensureBlank true) (fun _ s' => Evolves noWrite s s' ∧ Provisioned (view s 0))
      (fun _ _ => ¬ (Healthy s ∧ Provisioned (view s 0))) s := by
  unfold ensureBlank
  rw [wp_bind, wp_io]
  refine wp_readBlock hs (fun b s1 e1 hb => ?_) (fun e s1 _ hh h => hh h.1 hn)
  obtain rfl : b = view s 0 := hb (hf 0)
  rw [if_pos rfl, wp_ite]
  refine ⟨fun hbad h => hbad.elim (fun hne => hne h.2.1) fun hne => hne h.2.2, fun hgood => ⟨e1, ?_⟩⟩
  rw [not_or, not_not, not_not] at hgood
  exact hgood

/-- The disk is one that `format_provisioned` accepts, and answers. -/
def Acceptable (s : σ) (systemBlocks packageStart : ℕ) : Prop :=
  Healthy s ∧ Provisioned (view s 0) ∧ PoolsOk (blockCount s) systemBlocks packageStart

/-- Formatting a provisioned disk and opening it: the commit records that were there decide about the root. -/
theorem wp_formatProvisioned_open (systemBlocks packageStart : ℕ) (hs : Inv s) (hf : ∀ i, faithful s i) :
    wp (formatProvisioned systemBlocks packageStart >>= fun _ => openVolume)
      (fun v _ => v.root = arrival s (firstRoot (blockCount s) systemBlocks packageStart))
      (fun _ _ => ¬ Acceptable s systemBlocks packageStart) s := by
  refine wp_step (wp_formatInner systemBlocks packageStart hs hf (wp_ensureBlank_provisioned hs hf)) ?_ (fun _ _ h => h)
  rintro v s' ⟨rfl, hpools, -, h⟩
  have hv := hpools.valid
  set R := firstRoot (blockCount s) systemBlocks packageStart with hRdef
  have hsup : ∀ i < 2, decodeRoot (view s' i) = .ok (some R) := fun i hi => by
    rw [h.superblock i hi, decodeRoot_encodeRoot R hv.fits]
  have hat : arrival s' R = arrival s R := by
    have hcommit : ∀ k ∈ range commitSlots, commitAt s' k = commitAt s k := fun k hk => by
      rw [commitAt, commitAt, h.commitSlot k (mem_range.mp hk)]
    rw [arrival, arrival, foundCommit, foundCommit, filterMap_congr hcommit]
  refine wp_mono (wp_openVolume_of_recorded h.inv (fun i _ => h.faithful i) fun i hi => ⟨R, hsup i hi, by rw [h.count]; exact hv⟩)
    ?_ (fun e s'' he hh => he.2.1 (h.healthy hh.1))
  rintro v s'' ⟨-, ⟨r, ⟨a, ha, hr⟩, hroot⟩, -⟩
  obtain rfl : R = r := by simpa [hsup a ha] using hr
  rw [hroot, hat]

end Format

section Disk

def provisionedMarker : Block := Block.zero.splice 0 cowProvisionedBlankMagic

/-- A disk of twelve blocks, provisioned, with `content` in its first commit slot. -/
@[irreducible] def provisionedDisk (content : Block) : CrashStore := .boot 12 fun i =>
  if i = 0 then provisionedMarker else if i = commitStart then content else Block.zero

lemma provisioned_marker : Provisioned provisionedMarker := by
  refine ⟨Bytes.slice_splice_self _ 0 cowProvisionedBlankMagic (by decide), all_eq_true.mpr fun x hx => ?_⟩
  obtain ⟨i, hi, rfl⟩ := mem_iff_getElem.mp hx
  have hzero : provisionedMarker.byteAt (8 + i) = 0 := by
    rw [provisionedMarker, Bytes.byteAt_splice _ _ _ _ (by decide), if_neg (by simp [cowProvisionedBlankMagic])]
    exact Bytes.byteAt_zeros _
  rw [getElem_drop, beq_iff_eq, ← hzero]
  exact (getD_eq_getElem _ _ _).symm

lemma provisionedDisk_blocks (content : Block) : blockCount (provisionedDisk content) = 12 := by
  rw [provisionedDisk, blockCount_boot]

lemma provisionedDisk_acceptable (content : Block) : Acceptable (provisionedDisk content) 1 7 := by
  rw [Acceptable, provisionedDisk_blocks, provisionedDisk, view_boot]
  exact ⟨healthy_boot _ _, provisioned_marker, by decide, by decide, by decide, by decide, by decide⟩

lemma view_provisionedDisk (content : Block) (k : ℕ) :
    view (provisionedDisk content) (commitStart + k) = if k = 0 then content else zero := by
  rw [provisionedDisk, view_boot, if_neg (by unfold commitStart; omega)]
  simp

lemma commitAt_provisionedDisk {content : Block} {m : Option CommitRecord} (h : decodeCommit content = .ok m) (k : ℕ) :
    commitAt (provisionedDisk content) k = if k = 0 then m else none := by
  rw [commitAt, view_provisionedDisk]
  by_cases hk : k = 0
  · rw [if_pos hk, if_pos hk, h]
  · rw [if_neg hk, if_neg hk, decodeCommit_zero]

/-- The commit record of an earlier volume, of its second generation. -/
def leftRecord : CommitRecord := ⟨2, 0, 0, 0, 0, 0, 0, 1⟩

end Disk

end LogOS.Storage.Catalog
