import LogOS.Storage.Catalog.Replace

/-!
# Transactions on a volume

A transaction is begun on a root, allocates free blocks, writes them and names blocks to be released; a commit publishes
the result.  The code trusts its callers with two things that it does not check before it is too late: that a transaction
is used only while the root it was begun on is the current one, and that what is retired is not the published catalog.
`TxnOk` is what holds of a transaction that is used in this way.
-/

namespace LogOS.Storage.Catalog

open Lib SystemCatalogVolume SystemCatalogTransaction List Bool Op

/-- An extent that lies between the first and the last arena of the root. -/
def SystemCatalogRoot.Within (R : SystemCatalogRoot) (e : Extent) : Prop :=
  R.systemStart ≤ e.start ∧ e.start + e.blocks ≤ R.packageEnd

variable {e : Extent}

lemma extentInArena_iff {lo hi : ℕ} (hhi : hi < 2 ^ 64) :
    extentInArena e (lo, hi) = true ↔ 0 < e.blocks ∧ lo ≤ e.start ∧ e.start + e.blocks ≤ hi := by
  unfold extentInArena checkedAdd
  by_cases h : e.start + e.blocks < 2 ^ 64
  · simp only [h, if_true, Option.any_some, Bool.and_eq_true, bne_iff_ne, decide_eq_true_eq]
    omega
  · simp only [h, if_false, Option.any_none, Bool.and_false, Bool.false_eq_true, false_iff]
    omega

variable {σ : Type} [BlockStore σ] [LawfulStore σ]

/-- A transaction of the current root: what it allocated is free, and what it releases is not the published catalog. -/
structure TxnOk (s : σ) (v : SystemCatalogVolume) (t : SystemCatalogTransaction) : Prop where
  root : t.root = v.root
  bitmap : t.bitmap = bitmapOf s v.root
  bitmapSlot : t.bitmapSlot = 1 - v.root.bitmapSlot
  allocated : ∀ e ∈ t.allocated, 0 < e.blocks ∧ v.root.systemStart ≤ e.start ∧ e.start + e.blocks ≤ v.root.packageEnd
  free : ∀ e ∈ t.allocated, ∀ i, e.Covers i → ¬ Used s v.root i
  disjoint : t.allocated.Pairwise Extent.Disjoint
  released : ∀ e ∈ t.released, v.root.systemStart ≤ e.start ∧ e.start + e.blocks ≤ v.root.packageEnd
  catalog : ∀ e ∈ t.released, e.Disjoint v.root.catalogExtent

variable {s s' : σ} {v : SystemCatalogVolume} {t t' : SystemCatalogTransaction} {W : ℕ → Block → Prop}

lemma TxnOk.evolves (h : TxnOk s v t) (he : Evolves W s s') (hW : Spares s v.root W) : TxnOk s' v t where
  root := h.root
  bitmap := by rw [bitmapOf_evolves he hW]; exact h.bitmap
  bitmapSlot := h.bitmapSlot
  allocated := h.allocated
  free e hm i hi := by rw [used_evolves he hW]; exact h.free e hm i hi
  disjoint := h.disjoint
  released := h.released
  catalog := h.catalog

/-- The blocks a transaction may write. -/
def SystemCatalogTransaction.Owns (t : SystemCatalogTransaction) (i : ℕ) : Prop := ∃ e ∈ t.allocated, e.Covers i

lemma any_covers_iff (l : List Extent) (i : ℕ) : (l.any fun e => e.Covers i) = true ↔ ∃ e ∈ l, e.Covers i := by
  simp [any_eq_true]

/-- The transaction's writes spare the current root. -/
theorem TxnOk.spares (h : TxnOk s v t) (hv : v.root.Valid (blockCount s)) : Spares s v.root (writesIn t.Owns) := by
  rintro j c ⟨e, he, hj⟩
  refine ⟨?_, h.free e he j hj⟩
  have h1 := (h.allocated e he).2.2; have h2 := hj.2; have h3 := hv.bitmapStart; have h4 := hv.packageEnd
  unfold bitmapBlock; omega

lemma TxnOk.dataStart_le (h : TxnOk s v t) (hv : v.root.Valid (blockCount s)) {j : ℕ} {c : Block}
    (hw : writesIn t.Owns j c) : dataStart ≤ j := by
  obtain ⟨e, he, hj⟩ := hw
  have := (h.allocated e he).2.1; have := hj.1; have := hv.systemStart
  omega

/-! ## The steps of a transaction -/

lemma wp_begin (h : VolumeOk s v) :
    wp (v.begin) (fun t s' => Evolves noWrite s s' ∧ TxnOk s' v t ∧ t.allocated = [] ∧ t.released = [])
      (fun e s' => Evolves noWrite s s' ∧ ¬ Healthy s ∧ ∃ b, e = .block b) s := by
  unfold SystemCatalogVolume.begin
  rw [wp_bind, wp_mapErr]
  refine wp_readBitmap h (fun s' he => ?_) (fun b s' he hh => ⟨he, hh, b, rfl⟩)
  refine ⟨he, ⟨rfl, (bitmapOf_evolves he (.noWrite _ _)).symm, rfl, ?_, ?_, .nil, ?_, ?_⟩, rfl, rfl⟩ <;>
    exact nofun

/-- What an allocation returns: a free extent of the arena, apart from everything the transaction holds or releases. -/
structure Allocation (t : SystemCatalogTransaction) (arena : ℕ × ℕ) (blocks : ℕ) (e : Extent)
    (t' : SystemCatalogTransaction) : Prop where
  after : t' = { t with allocated := t.allocated ++ [e] }
  size : e.blocks = blocks
  pos : 0 < blocks
  arena : arena.1 ≤ e.start ∧ e.start + e.blocks ≤ arena.2
  unmarked : ∀ i, e.Covers i → bitmapIsSet t.bitmap i = false
  allocated : ∀ f ∈ t.allocated, f.Disjoint e
  released : ∀ f ∈ t.released, f.Disjoint e

lemma allocateInArena_ok {arena : ℕ × ℕ} {blocks : ℕ}
    (h : t.allocateInArena blocks arena = .ok (e, t')) : Allocation t arena blocks e t' := by
  unfold SystemCatalogTransaction.allocateInArena at h
  split_ifs at h with hb
  cases hf : firstFit t.occupied blocks (arena.2 - arena.1) arena.1 none 0 with
  | none => rw [hf] at h; cases h
  | some start =>
    rw [hf] at h
    unfold SystemCatalogTransaction.recordAllocated at h
    split_ifs at h
    · cases h
    obtain ⟨rfl, rfl⟩ : ⟨start, blocks⟩ = e ∧ { t with allocated := t.allocated ++ [⟨start, blocks⟩] } = t' := by
      simpa [bind, Except.bind] using h
    obtain ⟨h1, h2, h3⟩ := firstFit_arena (by omega) hf
    have hocc : ∀ i, (⟨start, blocks⟩ : Extent).Covers i → t.occupied i = false := fun i hi => h3 i hi.1 hi.2
    have hsplit : ∀ i, (⟨start, blocks⟩ : Extent).Covers i → bitmapIsSet t.bitmap i = false ∧
        (∀ f ∈ t.allocated, ¬ f.Covers i) ∧ ∀ f ∈ t.released, ¬ f.Covers i := by
      intro i hi
      have := hocc i hi
      unfold SystemCatalogTransaction.occupied at this
      simp only [or_eq_false_iff, any_eq_false, decide_eq_true_eq] at this
      exact ⟨this.1.1, this.1.2, this.2⟩
    exact ⟨rfl, rfl, by omega, ⟨h1, h2⟩, fun i hi => (hsplit i hi).1, fun f hf i hfi hi => (hsplit i hi).2.1 f hf hfi,
      fun f hf i hfi hi => (hsplit i hi).2.2 f hf hfi⟩

/-- The transaction after it recorded one more free extent. -/
theorem TxnOk.record (h : TxnOk s v t) (he : 0 < e.blocks)
    (harena : v.root.systemStart ≤ e.start ∧ e.start + e.blocks ≤ v.root.packageEnd)
    (hfree : ∀ i, e.Covers i → ¬ Used s v.root i) (hdis : ∀ f ∈ t.allocated, f.Disjoint e) :
    TxnOk s v { t with allocated := t.allocated ++ [e] } where
  root := h.root
  bitmap := h.bitmap
  bitmapSlot := h.bitmapSlot
  allocated f hf := by
    rcases mem_append.mp hf with hf | hf
    · exact h.allocated f hf
    · obtain rfl : f = e := by simpa using hf
      exact ⟨he, harena⟩
  free f hf := by
    rcases mem_append.mp hf with hf | hf
    · exact h.free f hf
    · obtain rfl : f = e := by simpa using hf
      exact hfree
  disjoint := by
    rw [pairwise_append]
    refine ⟨h.disjoint, pairwise_singleton _ _, fun f hf f' hf' => ?_⟩
    obtain rfl : f' = e := by simpa using hf'
    exact hdis f hf
  released := h.released
  catalog := h.catalog

lemma TxnOk.allocate {arena : ℕ × ℕ} {blocks : ℕ} (h : TxnOk s v t)
    (ha : Allocation t arena blocks e t') (hlo : v.root.systemStart ≤ arena.1) (hhi : arena.2 ≤ v.root.packageEnd) :
    TxnOk s v t' := by
  rw [ha.after]
  refine h.record (by rw [ha.size]; exact ha.pos) ⟨le_trans hlo ha.arena.1, le_trans ha.arena.2 hhi⟩
    (fun i hi hu => ?_) ha.allocated
  have := ha.unmarked i hi
  rw [h.bitmap] at this
  rw [Used, this] at hu
  cases hu

lemma retireExtent_ok (hv : t.root.packageEnd < 2 ^ 64) (h : t.retireExtent e = .ok t') :
    t' = { t with released := t.released ++ [e] } ∧ t.root.systemStart ≤ e.start ∧
      e.start + e.blocks ≤ t.root.packageEnd := by
  unfold retireExtent at h
  split_ifs at h with hc
  push Not at hc
  obtain ⟨-, h1, h2⟩ := (extentInArena_iff hv).mp hc.1
  exact ⟨(Except.ok.inj h).symm, h1, h2⟩

lemma TxnOk.retire (h : TxnOk s v t) (hv : v.root.Valid (blockCount s)) (hr : t.retireExtent e = .ok t')
    (hcat : e.Disjoint v.root.catalogExtent) : TxnOk s v t' := by
  have hpe : t.root.packageEnd < 2 ^ 64 := by
    have := hv.packageEnd; have := hv.count_le; rw [h.root]; omega
  obtain ⟨rfl, h1, h2⟩ := retireExtent_ok hpe hr
  rw [h.root] at h1 h2
  refine ⟨h.root, h.bitmap, h.bitmapSlot, h.allocated, h.free, h.disjoint, fun f hf => ?_, fun f hf => ?_⟩
  · rcases mem_append.mp hf with hf | hf
    · exact h.released f hf
    · obtain rfl : f = e := by simpa using hf
      exact ⟨h1, h2⟩
  · rcases mem_append.mp hf with hf | hf
    · exact h.catalog f hf
    · obtain rfl : f = e := by simpa using hf
      exact hcat

/-- A write of a transaction goes to a block it allocated. -/
theorem wp_txnWriteBlock {i : ℕ} {b : Block} (hs : StoreModel.Inv s) (hn : t.Owns i → i < blockCount s) :
    wp (t.writeBlock i b) (fun _ s' => t.Owns i ∧ Evolves (oneWrite i b) s s' ∧ view s' i = b)
      (fun e s' => Evolves noWrite s s' ∧
        ((e = .invalidRequest ∧ ¬ t.Owns i) ∨ (t.Owns i ∧ (∃ b, e = .block b) ∧ ¬ Healthy s))) s := by
  unfold SystemCatalogTransaction.writeBlock
  by_cases ho : t.Owns i
  · rw [if_neg (by rw [any_covers_iff]; exact fun h => h ho), wp_mapErr]
    exact wp_writeBlock hs (fun s' he hv => ⟨ho, he, hv⟩)
      (fun e s' he hh => ⟨he, .inr ⟨ho, ⟨e, rfl⟩, fun h => hh h (hn ho)⟩⟩)
  · rw [if_pos (by rw [any_covers_iff]; exact ho)]
    exact ⟨.refl _ _, .inl ⟨rfl, ho⟩⟩

/-! ## Commit -/

variable {metadata : Extent}

/-- What a commit of the transaction publishes. -/
structure CommitPlan (R : SystemCatalogRoot) (t : SystemCatalogTransaction) (metadata : Extent) (metadataBytes : ℕ)
    (R' : SystemCatalogRoot) (bitmap' : Block) : Prop where
  current : t.root = R
  blocks : metadata.blocks ≠ 0
  bytes : metadataBytes ≠ 0
  size : metadataBytes ≤ metadata.blocks * 4096
  arena : extentInArena metadata (R.systemStart, R.systemEnd)
  allocated : metadata ∈ t.allocated
  generation : R.generation + 1 < 2 ^ 64
  root : R' = { R with
    generation := R.generation + 1, metadataStart := metadata.start, metadataBlocks := metadata.blocks
    metadataBytes := metadataBytes, bitmapSlot := t.bitmapSlot }
  bitmap : bitmap' = t.finalBitmap

/-- What a commit with the given metadata asks of a transaction of the current root: it keeps the catalog, and puts the
metadata next to it.  The other extents may be in use, as those are that a transaction reserves. -/
structure Committable (s : σ) (v : SystemCatalogVolume) (t : SystemCatalogTransaction) (metadata : Extent) : Prop where
  bitmap : t.bitmap = bitmapOf s v.root
  bitmapSlot : t.bitmapSlot = 1 - v.root.bitmapSlot
  allocated : ∀ e ∈ t.allocated, v.root.Within e
  released : ∀ e ∈ t.released, v.root.Within e
  catalog : ∀ e ∈ t.released, e.Disjoint v.root.catalogExtent
  metadata : metadata.Disjoint v.root.catalogExtent

lemma TxnOk.committable (h : TxnOk s v t) (hb : BitmapOk v.root (bitmapOf s v.root))
    (hm : metadata ∈ t.allocated) : Committable s v t metadata where
  bitmap := h.bitmap
  bitmapSlot := h.bitmapSlot
  allocated e he := (h.allocated e he).2
  released := h.released
  catalog := h.catalog
  metadata i hi hc := h.free metadata hm i hi (hb.catalog i hc)

/-- The blocks in use after a commit: those allocated, and those that were in use and are not released. -/
theorem Committable.finalBitmap_iff (h : Committable s v t metadata) (hv : v.root.Valid (blockCount s)) (i : ℕ) :
    bitmapIsSet t.finalBitmap i = true ↔ t.Owns i ∨ (Used s v.root i ∧ ∀ e ∈ t.released, ¬ e.Covers i) := by
  have hn := hv.count_le
  have hpe := hv.packageEnd
  rw [finalBitmap, bitmapIsSet_foldl_setExtent (fun e he => by have := (h.allocated e he).2; omega),
    bitmapIsSet_foldl_setExtent (fun e he => by have := (h.released e he).2; omega), h.bitmap]
  by_cases h1 : ∃ e ∈ t.allocated, e.Covers i
  · simp [h1, Owns]
  by_cases h2 : ∃ e ∈ t.released, e.Covers i
  · rw [if_neg h1, if_pos h2]
    simp only [false_eq_true, false_iff]
    rintro (h | ⟨-, h⟩)
    · exact h1 h
    · obtain ⟨e, he, hc⟩ := h2
      exact h e he hc
  · rw [if_neg h1, if_neg h2]
    push Not at h2
    exact ⟨fun hu => .inr ⟨hu, h2⟩, fun h => h.elim (fun h => (h1 h).elim) And.left⟩

lemma CommitPlan.follows {R' : SystemCatalogRoot} {bitmap' : Block} {metadataBytes : ℕ}
    (h : CommitPlan v.root t metadata metadataBytes R' bitmap') (hok : VolumeOk s v) (ht : Committable s v t metadata) :
    Follows (blockCount s) v.root R' ∧ BitmapOk R' bitmap' := by
  obtain ⟨-, hbl, hby, hsz, har, hal, hgen, hroot, rfl⟩ := h
  have hv := hok.valid
  have hb := hok.held.bitmapOk
  have hend := hv.systemEnd_le
  have hn := hv.count_le
  obtain ⟨hpos, hlo, hhi⟩ := (extentInArena_iff (by omega)).mp har
  have hkin : v.root.Kin R' := by rw [hroot]; rfl
  have hfin := ht.finalBitmap_iff hv
  refine ⟨⟨?_, hkin, by rw [hroot], by rw [hroot]; exact ht.bitmapSlot⟩, ⟨fun i hi => ?_, fun i hi => ?_, fun i hi => ?_, ?_⟩⟩
  · have hts := ht.bitmapSlot
    rw [hroot]
    exact hv.renewed hgen (by omega) hv.catalog (.inr ⟨hpos, hlo, hhi, Nat.pos_of_ne_zero hby, hsz⟩)
  · obtain ⟨-, hg1, -, -, -, -, hg2⟩ := hkin.geometry
    rcases (hfin i).mp hi with ⟨e, he, hc⟩ | ⟨hu, -⟩
    · have h1 := (ht.allocated e he).1; have h2 := (ht.allocated e he).2; have := hc.1; have := hc.2
      omega
    · have := hb.arena i hu
      omega
  · have hc : v.root.catalogExtent.Covers i := by rw [hroot] at hi; exact hi
    exact (hfin i).mpr (.inr ⟨hb.catalog i hc, fun e he hec => ht.catalog e he i hec hc⟩)
  · have hm : metadata.Covers i := by rw [hroot] at hi; exact hi
    exact (hfin i).mpr (.inl ⟨metadata, hal, hm⟩)
  · intro i hc hm
    have hc : v.root.catalogExtent.Covers i := by rw [hroot] at hc; exact hc
    have hm : metadata.Covers i := by rw [hroot] at hm; exact hm
    exact ht.metadata i hm hc

lemma wp_verifyExtent (hs : StoreModel.Inv s) (hn : e.start + e.blocks ≤ blockCount s) :
    wp (verifyExtent e) (fun _ => Evolves noWrite s) (ReadFails s) s := by
  refine wp_verifyLoop _ fun i s' he hi => ?_
  rw [wp_bind, wp_io]
  exact wp_readBlockUncached (he.inv hs) (fun s'' he' => he')
    (fun e s'' he' hh => ⟨he', ⟨e, rfl⟩, fun h => hh h (by rw [he.count]; omega)⟩)

lemma wp_verifyExtents (l : List Extent) (hs : StoreModel.Inv s) (hn : ∀ e ∈ l, e.start + e.blocks ≤ blockCount s) :
    wp (forEach verifyExtent l) (fun _ => Evolves noWrite s) (ReadFails s) s := by
  refine wp_forEach (fun _ s' => Evolves noWrite s s') (fun done a rest s' hl he => ?_) (.refl _ _)
  refine wp_mono (wp_verifyExtent (he.inv hs) (by rw [he.count]; exact hn a (by simp [← hl]))) (fun _ _ h => he.trans h) ?_
  rintro e s'' ⟨h, hb, hh⟩
  exact ⟨he.trans h, hb, fun h => hh (he.healthy h)⟩

/-- The error is an I/O error. -/
def CowError.IsIo (e : CowError) : Prop := ∃ b, e = .block b

/-- A commit leaves every block behind the records as it is, but for the new bitmap. -/
def KeepsData (s : σ) (s' : σ) (R' : SystemCatalogRoot) : Prop :=
  ∀ i, dataStart ≤ i → i ≠ bitmapBlock R' → view s' i = view s i

/-- **`commit`.** -/
theorem wp_commit (h : VolumeOk s v) (metadata : Extent) (metadataBytes : ℕ)
    (ht : t.root = v.root → metadata ∈ t.allocated → Committable s v t metadata) :
    let P := CommitPlan v.root t metadata metadataBytes
    wp (v.commit t metadata metadataBytes) (Published P (KeepsData s) s v)
      (fun e => Failed P (KeepsData s) s v e.IsIo) s := by
  intro P
  unfold SystemCatalogVolume.commit
  rw [wp_bind, wp_guard]
  refine ⟨fun hg => ?_, fun hg => ?_⟩
  swap
  · refine .refused_at_once h (by simp [CowError.IsIo]) fun R' bm hp => ?_
    obtain ⟨h1, h2, h3, h4, h5, h6, -, -, -⟩ := hp
    have h5' : extentInArena metadata v.systemArena = true := h5
    simp [h1, h2, h3, blockBytes, not_lt.mpr h4, h5', containsAllocated, h6] at hg
  simp only [not_eq_true', or_eq_false_iff, bne_eq_false_iff_eq, beq_eq_false_iff_ne, decide_eq_false_iff_not, not_eq_false', containsAllocated, contains_iff_mem] at hg
  obtain ⟨⟨⟨⟨⟨h1, h2⟩, h3⟩, h4⟩, h5⟩, h6⟩ := hg
  have ht := ht h1 h6
  rw [wp_bind, wp_orFail]
  refine ⟨fun generation hc => ?_, fun hc => ?_⟩
  swap
  · refine .refused_at_once h (by simp [CowError.IsIo]) fun R' bm hp => ?_
    unfold checkedAdd at hc
    rw [if_pos hp.generation] at hc
    cases hc
  obtain ⟨hgen, rfl⟩ := checkedAdd_eq_some.mp hc
  have hp : P _ t.finalBitmap :=
    ⟨h1, h2, h3, by unfold blockBytes at h4; omega, h5, h6, hgen, rfl, rfl⟩
  obtain ⟨hF, hb⟩ := CommitPlan.follows hp h ht
  have hkeep : ∀ {s' : σ} {R' : SystemCatalogRoot}, Evolves (publishWrites R' t.finalBitmap) s s' → KeepsData s s' R' := by
    intro s' R' he i hd hne
    refine he.view_eq fun c hw => ?_
    rcases hw with ⟨hw, -⟩ | hw
    · exact hne hw
    · omega
  rw [wp_mapErr]
  refine wp_mono (wp_publish_volume h hF hb fun s' he => wp_verifyExtents t.allocated (he.inv h.inv) fun e hm => ?_) ?_ ?_
  · have := (ht.allocated e hm).2; have := h.valid.packageEnd
    rw [he.count]; omega
  · rintro v' s' ⟨hr, hok, hbm, he⟩
    exact ⟨by rw [hr, hbm]; exact hp, hok, (publishWrites_spares h.held h.valid hF).free he, by rw [hr]; exact hkeep he⟩
  · rintro e s' ⟨⟨b, rfl⟩, hh, he, hheld, hst⟩
    refine ⟨(publishWrites_spares h.held h.valid hF).free he, hheld, hst.imp_right ?_, .inl ⟨⟨b, rfl⟩, hh⟩⟩
    rintro ⟨hcm, hheld'⟩
    exact ⟨_, by rw [hcm.bitmap]; exact hp, hcm.state, hheld', hkeep he⟩

end LogOS.Storage.Catalog
