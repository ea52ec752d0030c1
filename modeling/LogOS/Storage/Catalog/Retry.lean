import LogOS.Storage.Catalog.Crash

/-!
# Failing I/O and retries

A client that gets an error from `replace_catalog` may call it again on the same volume.  As long as the volume in memory
keeps up with the store this is safe: after any calls, each with failures of its own, a power loss leaves a volume whose
catalog is one of the snapshots, whole.  The volume falls behind when both the publication and the `open` that is to
recover it fail after the commit record was written; the next call then allocates from the old bitmap and writes over
the blocks that this record refers to.
-/

namespace LogOS.Storage.Catalog

open Lib SystemCatalogVolume Op CrashStore SystemCatalogRoot Mounted LawfulStore

/-! ## Runs with failures -/

/-- The device with other failures ahead. -/
def Mounted.refail (m : Mounted CrashStore) (fails : ℕ → Option BlockError) : Mounted CrashStore :=
  { m with store := { m.store with fails := fails } }

/-- The volumes that come from a format by calls of `replace_catalog`, with the snapshots passed to them.  Each call meets
failures of its own and may return an error; it is made in a state that is `allowed`. -/
inductive Retried (allowed : Mounted CrashStore → Prop) : List (List UInt8) → Mounted CrashStore → Prop
  | format {systemBlocks packageStart : ℕ} {s₀ s : CrashStore} {v : SystemCatalogVolume}
      (h : format systemBlocks packageStart s₀ = (.ok v, s)) : Retried allowed [] ⟨v, s, false⟩
  | call {snapshots : List (List UInt8)} {m : Mounted CrashStore} (h : Retried allowed snapshots m) (ha : allowed m)
      (snapshot : List UInt8) (fails : ℕ → Option BlockError) :
      Retried allowed (snapshots ++ [snapshot]) (Mounted.replaceCatalog snapshot (m.refail fails)).2

/-- The volume keeps up with the store: no record on the device or in its write queue is newer than the root in memory. -/
structure Mounted.Abreast (m : Mounted CrashStore) : Prop where
  superblock : ∀ i < 2, ∀ c r, poss m.store i c → decodeRoot c = .ok (some r) → r.generation ≤ m.volume.root.generation
  commitSlot : ∀ k < 2, ∀ c r, poss m.store (commitStart + k) c → decodeCommit c = .ok (some r) →
    r.generation ≤ m.volume.root.generation

/-- The volume opens on the image, and its catalog is one of the snapshots, or there is none. -/
def OpensToOneOf (snapshots : List (List UInt8)) (blocks : ℕ) (image : ℕ → Block) : Prop :=
  ∃ v s catalog, openVolume (CrashStore.boot blocks image) = (.ok v, s) ∧
    (∀ snapshot, catalog = some snapshot → snapshot ∈ snapshots) ∧
    ∀ capacity, (v.readCatalog capacity s).1 = readResult catalog capacity

/-! ## The invariant -/

/-- The root refers to blocks that are in place, and its catalog is one of the snapshots. -/
structure Whole (snapshots : List (List UInt8)) (s : CrashStore) (R : SystemCatalogRoot) : Prop where
  held : Held s R
  catalog : ∀ snapshot, catalogAt (view s) R = some snapshot → snapshot ∈ snapshots

/-- The root in memory and every root that the device can open to are whole. -/
structure RetryOk (snapshots : List (List UInt8)) (m : Mounted CrashStore) : Prop where
  active : m.volume.activeSuperblock < 2
  whole : Whole snapshots m.store m.volume.root
  state : Settled m.store m.volume.root ∨ ∃ R', R'.generation = m.volume.root.generation + 1 ∧
    (Anchored m.store m.volume.root R' ∨ Settled m.store R') ∧ Whole snapshots m.store R'

section RetryOk

variable {snapshots : List (List UInt8)} {m : Mounted CrashStore} {s : CrashStore} {R R' : SystemCatalogRoot}

lemma Whole.frame {s' : CrashStore} (h : Whole snapshots s R) (he : Evolves (freeWrites s R) s s') : Whole snapshots s' R :=
  ⟨h.held.evolves he (.ofFree s R), by rw [catalogAt_frame h.held he]; exact h.catalog⟩

/-- A device that opens to the root in memory or to a newer one, when nothing is newer. -/
theorem Anchored.settled_of_abreast (h : Anchored m.store m.volume.root R')
    (hg : R'.generation = m.volume.root.generation + 1) (ha : m.Abreast) : Settled m.store m.volume.root where
  valid := h.valid
  valid' := h.valid
  kin := .refl _
  next := .inl rfl
  superblock i hi c hc := by
    obtain ⟨r, hd, hv, hk, hr⟩ := h.superblock i hi c hc
    have := ha.superblock i hi c r hc hd
    refine ⟨r, hd, hv, hk, hr.imp_right fun hr => .inl (hr.resolve_right ?_)⟩
    rintro rfl
    omega
  commitSlot k hk c hc := by
    refine (h.commitSlot k hk c hc).imp_right fun ⟨r, hd, hp, hr⟩ => ⟨r, hd, hp, hr.imp_right fun hr => .inl ?_⟩
    have := ha.commitSlot k hk c r hc hd
    refine hr.resolve_right ?_
    rintro rfl
    simp only [commitRecord] at this
    omega
  anchor := h.anchor.imp_right fun hb i hi c hc => .inl <| (hb i hi c hc).resolve_right fun hd => by
    have := ha.superblock i hi c R' hc hd
    omega

lemma Settled.not_abreast (h : Settled m.store R') (hg : R'.generation = m.volume.root.generation + 1) : ¬ m.Abreast := by
  intro ha
  rcases h.anchor with hc | hb
  · have := ha.commitSlot (R'.generation % 2) (by omega) _ _ (poss_view _ trivial) (hc _ (poss_view _ trivial))
    simp only [commitRecord] at this
    omega
  · have := ha.superblock 0 (by omega) _ R' (poss_view _ trivial) ((hb 0 (by omega) _ (poss_view _ trivial)).elim id id)
    omega

lemma RetryOk.atRest (h : RetryOk snapshots m) (ha : m.Abreast) : VolumeOk m.store m.volume where
  inv := trivial
  settled := by
    rcases h.state with hs | ⟨R', hg, hs | hs, -⟩
    · exact hs
    · exact hs.settled_of_abreast hg ha
    · exact absurd ha (hs.not_abreast hg)
  held := h.whole.held
  active := h.active
  faithful _ _ := trivial

/-- A call on a volume at rest. -/
theorem RetryOk.call (h : RetryOk snapshots m) (ha : m.Abreast) (snapshot : List UInt8) (fails : ℕ → Option BlockError) :
    RetryOk (snapshots ++ [snapshot]) (replaceCatalog snapshot (m.refail fails)).2 ∧
      Evolves (freeWrites m.store m.volume.root) (m.refail fails).store
        (replaceCatalog snapshot (m.refail fails)).2.store := by
  have hok : VolumeOk (m.refail fails).store (m.refail fails).volume := (h.atRest ha).refail fails
  have hwhole : Whole (snapshots ++ [snapshot]) (m.refail fails).store m.volume.root :=
    ⟨hok.held, fun S hS => List.mem_append_left _ (h.whole.catalog S hS)⟩
  have hnew : ∀ {s' R' bm}, CatalogPlan m.volume.root (bitmapOf (m.refail fails).store m.volume.root) snapshot R' bm →
      CatalogIs snapshot s' R' → Held s' R' → Whole (snapshots ++ [snapshot]) s' R' := by
    intro s' R' bm hp hd hh
    refine ⟨hh, fun S hS => ?_⟩
    rw [hp.catalogAt hd] at hS
    simp [← Option.some.inj hS]
  refine state_of_wp (P := fun m' => RetryOk (snapshots ++ [snapshot]) m' ∧ Evolves (freeWrites m.store m.volume.root) (m.refail fails).store m'.store)
    (wp_mono (wp_replaceCatalog hok snapshot) ?_ ?_)
  · rintro g m' ⟨-, -, hp⟩
    exact ⟨⟨hp.atRest.active, hnew hp.plan hp.data hp.atRest.held, .inl hp.atRest.settled⟩, hp.frame⟩
  rintro e m' (⟨-, hr, hok', hf, -⟩ | ⟨-, hv, -, -, hstr⟩)
  · refine ⟨⟨hok'.active, ?_, .inl hok'.settled⟩, hf⟩
    rw [hr]
    exact hwhole.frame hf
  · refine ⟨⟨by rw [hv]; exact hok.active, by rw [hv]; exact hwhole.frame hstr.frame, ?_⟩, hstr.frame⟩
    rw [hv]
    refine hstr.state.imp_right ?_
    rintro ⟨R', hl⟩
    exact ⟨R', congrArg generation hl.plan.root, hl.state, hnew hl.plan hl.data hl.held⟩

lemma Whole.opens (h : Whole snapshots s R) (hv : R.Valid s.blocks) {image : ℕ → Block} (hi : s.Survives image)
    {v : SystemCatalogVolume} {s' : CrashStore} (he : openVolume (boot s.blocks image) = (.ok v, s'))
    (hr : v.root = R) (hh : Healthy s') (hb : s'.blocks = s.blocks) (hview : ∀ i, dataStart ≤ i → view s' i = image i) :
    OpensToOneOf snapshots s.blocks image :=
  ⟨v, s', _, he, h.catalog, (h.held.reads hv hi hr hh hb hview).catalog⟩

lemma RetryOk.opens (h : RetryOk snapshots m) {image : ℕ → Block} (hi : m.store.Survives image) :
    OpensToOneOf snapshots m.store.blocks image := by
  rcases h.state with hs | ⟨R', -, hs | hs, hw⟩
  · obtain ⟨v, s', he, hr, hh, hb, hview⟩ := hs.opens hi
    exact h.whole.opens hs.valid hi he (hr.elim id id) hh hb hview
  · obtain ⟨v, s', he, hr | hr, hh, hb, hview⟩ := hs.opens hi
    · exact h.whole.opens hs.valid hi he hr hh hb hview
    · exact hw.opens hs.valid' hi he hr hh hb hview
  · obtain ⟨v, s', he, hr, hh, hb, hview⟩ := hs.opens hi
    exact hw.opens hs.valid hi he (hr.elim id id) hh hb hview

lemma Retried.retryOk (h : Retried Abreast snapshots m) : RetryOk snapshots m := by
  induction h with
  | format h =>
    obtain ⟨hr, hok, -⟩ := wp_ok (wp_format _ _ trivial fun _ => trivial) h
    refine ⟨hok.active, ⟨hok.held, fun snapshot hs => ?_⟩, .inl hok.settled⟩
    rw [hr] at hs
    cases hs
  | call _ ha snapshot fails ih => exact (ih.call ha snapshot fails).1

end RetryOk

/-! ## No torn catalog -/

/-- The next call writes to no block of a catalog that a commit record of the present generation refers to. -/
def Mounted.SparesCommitted (m : Mounted CrashStore) (snapshot : List UInt8) (fails : ℕ → Option BlockError) : Prop :=
  ∀ k < 2, ∀ c r, poss m.store (commitStart + k) c → decodeCommit c = .ok (some r) →
    m.volume.root.generation ≤ r.generation → ∀ i, (⟨r.catalogStart, r.catalogBlocks⟩ : Extent).Covers i →
      view (Mounted.replaceCatalog snapshot (m.refail fails)).2.store i = view m.store i

/-- **No torn catalog.**  While every call is made on a volume that keeps up with the store, a power loss leaves one of the
snapshots, and no call writes over what a commit record refers to. -/
theorem no_torn_catalog {snapshots : List (List UInt8)} {m : Mounted CrashStore} (h : Retried Mounted.Abreast snapshots m) :
    (∀ image, m.store.Survives image → OpensToOneOf snapshots m.store.blocks image) ∧
      (m.Abreast → ∀ snapshot fails, m.SparesCommitted snapshot fails) := by
  have hok := h.retryOk
  refine ⟨fun image hi => hok.opens hi, fun ha snapshot fails k hk c r hc hd hg i hcov => ?_⟩
  have hset := (hok.atRest ha).settled
  obtain hn | ⟨r', hd', -, hr⟩ := hset.commitSlot k hk c hc
  · rw [hd] at hn
    cases hn
  obtain rfl : r = r' := by simpa [hd] using hd'
  obtain rfl : r = m.volume.root.commitRecord := by
    rcases hr with hr | hr | hr
    · omega
    · exact hr
    · exact hr
  have hused := hok.whole.held.bitmapOk.catalog i hcov
  exact view_of_used (s := (m.refail fails).store) (hok.call ha snapshot fails).2
    (.ofFree m.store m.volume.root) hused

lemma VolumeOk.abreast {s : CrashStore} {v : SystemCatalogVolume} (h : VolumeOk s v) (b : Bool) : Abreast ⟨v, s, b⟩ where
  superblock i hi c r hc hd := by
    obtain ⟨r', hd', -, -, hr⟩ := h.settled.superblock i hi c hc
    obtain rfl : r = r' := by simpa [hd] using hd'
    rcases hr with hr | rfl | rfl
    exacts [le_of_lt hr, le_refl _, le_refl _]
  commitSlot k hk c r hc hd := by
    rcases h.settled.commitSlot k hk c hc with hn | ⟨r', hd', -, hr⟩
    · simp [hd] at hn
    · obtain rfl : r = r' := by simpa [hd] using hd'
      rcases hr with hr | rfl | rfl
      exacts [le_of_lt hr, le_refl _, le_refl _]

/-- A first catalog whose publication is interrupted by a failure. -/
theorem no_torn_catalog_first_failure : ∃ m, Retried Mounted.Abreast [[1]] m ∧
    OpensToOneOf [[1]] m.store.blocks (view m.store) := by
  obtain ⟨v, s, he, -, hok, -⟩ := format_blankDevice
  have h : Retried Abreast [[1]] _ := Retried.call (.format he) (hok.abreast _) [1]
    fun n => if n = s.clock + 3 then some .io else none
  exact ⟨_, h, (no_torn_catalog h).1 _ (survives_view _)⟩

/-! ## A volume that falls behind -/

section Behind

variable {s s' : CrashStore} {v : SystemCatalogVolume} {snapshot : List UInt8} {R' : SystemCatalogRoot} {bm : Block} {e : BlockError}
  {b : Bool}

lemma io_ok {α : Type} {m : Op CrashStore BlockError α} {a : α} (h : m s = (.ok a, s')) : io m s = (.ok a, s') := by
  rw [io, Op.mapErr, h]

lemma io_error {α : Type} {m : Op CrashStore BlockError α} (h : m s = (.error e, s')) :
    io m s = (.error (.block e), s') := by
  rw [io, Op.mapErr, h]

/-- `replace_catalog_inner` with a snapshot of one block, up to its publication. -/
theorem replaceCatalogInner_eq (hv : v.root.Valid s.blocks) (hp : CatalogPlan v.root (bitmapOf s v.root) snapshot R' bm)
    (hone : blocksFor snapshot.length = 1) (hf : ∀ k < 2, s.fails (s.clock + k) = none) :
    v.replaceCatalogInner snapshot s =
      publish v R' bm (verifyCatalog R' snapshot) (s.tick.queue R'.catalogStart (chunkBlock snapshot 0)) := by
  obtain ⟨-, hhi, -⟩ := allocateInArena_spec (le_of_lt hv.system) hp.extent
  have := hp.nonempty; have := hp.size; have := hv.systemEnd_le; have hroot := hp.root
  rw [hone] at hroot
  have hwrite : writeChunks R'.catalogStart snapshot 1 s.tick = (.ok (), s.tick.queue R'.catalogStart (chunkBlock snapshot 0)) :=
    bind_of_ok (io_ok (writeBlock_eq (hf 1 (by omega)) (by simp [blocks_tick]; omega)))
  have hext : R'.catalogExtent = ⟨R'.catalogStart, 1⟩ := by
    rw [catalogExtent, show R'.catalogBlocks = 1 from congrArg catalogBlocks hroot]
  refine (bind_of_ok (by rw [Op.guard, if_pos (by simp [*])]; rfl)).trans ?_
  refine (bind_of_ok (by rw [Op.guard, if_pos (by simp [hone, systemCatalogMaxBlocks])]; rfl)).trans ?_
  refine (bind_of_ok (io_ok (readBlock_eq (hf 0 (by omega)) hv.bitmapBlock_lt))).trans ?_
  refine (bind_of_ok (congrArg (Op.lift · s.tick) hp.extent)).trans ?_
  rw [hone]
  refine (bind_of_ok hwrite).trans ?_
  refine (bind_of_ok (congrArg (Op.orFail · _ _) (if_pos hp.generation))).trans ?_
  rw [← hroot, hp.bitmap, hext]
  rfl

lemma verifyBlock_eq {i n : ℕ} {b : Block} (hf : s.fails s.clock = none) (hi : i < s.blocks) (hb : view s i = b) :
    verifyBlock i b (n + 1) s = (.ok (), s.tick) := by
  have hr := io_ok (readBlock_eq hf hi)
  exact (bind_of_ok hr).trans (congrFun (if_pos hb) _)

/-- A publication whose commit record is written out and whose superblock is refused. -/
theorem publish_refused (hv : R'.Valid s.blocks) (hc : R'.catalogBlocks = 1)
    (hD : view s R'.catalogStart = chunkBlock snapshot 0)
    (hf : ∀ k < 6, s.fails (s.clock + k) = none) (hf' : s.fails (s.clock + 6) = some e) :
    publish v R' bm (verifyCatalog R' snapshot) s = (.error (.block e),
      ((((s.queue (bitmapBlock R') bm).drain.tick.tick).queue (commitStart + R'.generation % 2)
        (encodeCommit R'.commitRecord)).drain).tick) := by
  have hn : bitmapBlock R' < s.blocks := hv.bitmapBlock_lt
  have := hv.catalog.within hv; have := hv.systemEnd_le; have := hv.bitmapStart; have := hv.systemStart; have := hv.system
  have hne : R'.catalogStart ≠ bitmapBlock R' := by
    have hg := hv.catalog
    unfold GoodExtent at hg; unfold bitmapBlock
    omega
  have hslot : commitStart + R'.generation % 2 < s.blocks := by
    unfold dataStart at *
    omega
  have hdata : verifyCatalog R' snapshot (s.queue (bitmapBlock R') bm).drain = (.ok (), (s.queue (bitmapBlock R') bm).drain.tick) := by
    rw [verifyCatalog, hc]
    refine bind_of_ok (verifyBlock_eq (hf 2 (by omega)) (by simp; omega) ?_)
    simp [hne, hD]
  -- the writes and reads one after another, up to the superblock
  refine (bind_of_ok (io_ok (writeBlock_eq (hf 0 (by omega)) hn))).trans ?_
  refine (bind_of_ok (io_ok (flush_eq (hf 1 (by omega))))).trans ?_
  refine (bind_of_ok hdata).trans ?_
  refine (bind_of_ok (verifyBlock_eq (by exact hf 3 (by omega)) (by exact hn) (by simp))).trans ?_
  refine (bind_of_ok (io_ok (writeBlock_eq (by exact hf 4 (by omega)) (by exact hslot)))).trans ?_
  refine (bind_of_ok (io_ok (flush_eq (by exact hf 5 (by omega))))).trans ?_
  exact bind_of_error (io_error (writeBlock_fails hf'))

/-- An `open` on a device that answers no more. -/
theorem openVolume_unreadable (hv : v.root.Valid s.blocks) (hf : ∀ k < 2, s.fails (s.clock + k) = some e) :
    openVolume s = (.error (.block e), s.tick.tick) := by
  have hread : ∀ t : CrashStore, t.fails t.clock = some e → ∀ i,
      readSuperblock i t = (.error (.block e), t.tick) := fun t ht i =>
    bind_of_error (io_error (readBlock_fails ht))
  refine (bind_of_ok (congrArg (Op.lift · s) hv.validateCapacity_eq)).trans ?_
  rw [attempt_bind, hread s (hf 0 (by omega)), attempt_bind, hread s.tick (hf 1 (by omega))]
  rfl

/-- What `replace_catalog` makes of a failure of `open` after its own. -/
theorem replaceCatalog_refused {s1 s2 : CrashStore} {e' : CatalogError}
    (h1 : v.replaceCatalogInner snapshot s = (.error (.block e), s1)) (h2 : openVolume s1 = (.error e', s2)) :
    replaceCatalog snapshot ⟨v, s, b⟩ = (.error e', ⟨v, s2, true⟩) := by
  have hin : (update fun v => v.replaceCatalogInner snapshot).attempt ⟨v, s, b⟩ =
      (.ok (ε := CatalogError) (.error (.block e)), ⟨v, s1, b⟩) := by
    rw [Op.attempt, update, get_bind, bind_of_error (by rw [onStore, Op.zoom, h1])]
  rw [replaceCatalog, get_bind, bind_of_ok hin]
  exact bind_of_error (by rw [Op.onError, onStore, Op.zoom, h2])

/-- **A volume falls behind.**  The device stops answering after the commit record of a publication was written out, for the
recovery as well: the call fails, the commit record is there to stay, and the volume in memory knows nothing of it. -/
theorem exists_behind (h : VolumeOk s v) (hp : CatalogPlan v.root (bitmapOf s v.root) snapshot R' bm)
    (hone : blocksFor snapshot.length = 1) :
    ∃ fails s', replaceCatalog snapshot (refail ⟨v, s, b⟩ fails) = (.error (.block .io), ⟨v, s', true⟩) ∧
      Settled s' R' ∧ s'.blocks = s.blocks ∧ bitmapOf s' v.root = bitmapOf s v.root := by
  let fails : ℕ → Option BlockError := fun n => if n < s.clock + 8 then none else some .io
  have hok : VolumeOk { s with fails := fails } v := h.refail fails
  have hF := (hp.follows h.valid h.held.bitmapOk).1
  have hc : R'.catalogBlocks = 1 := (congrArg catalogBlocks hp.root).trans hone
  have hinner := replaceCatalogInner_eq hok.valid hp hone (fun k hk => if_pos (by simp only; omega))
  rw [publish_refused (by exact hF.valid) hc (by simp) (fun k hk => if_pos (by simp; omega))
    (if_neg (by simp))] at hinner
  generalize hs1 : tick _ = s1 at hinner
  have hpend : s1.pending = [] := by rw [← hs1]; rfl
  have hclock : s1.clock = s.clock + 9 := by rw [← hs1]; rfl
  have hfails : s1.fails = fails := by rw [← hs1]; rfl
  have hblocks : s1.blocks = s.blocks := by rw [← hs1]; rfl
  have hcall := replaceCatalog_refused (b := b) hinner
    (openVolume_unreadable (by rw [hblocks]; exact h.valid) fun k hk => by rw [hfails, hclock]; exact if_neg (by omega))
  -- the commit record is durable, so the old root is not the one the device is decided for
  have hdec : decodeCommit (view s1 (commitStart + R'.generation % 2)) = .ok (some R'.commitRecord) := by
    rw [← hs1]
    simp [decodeCommit_encodeCommit _ hF.valid.fits.commitRecord]
  have hnot : ¬ Settled s1.tick.tick v.root := by
    intro hset
    rcases hset.commitSlot (R'.generation % 2) (by omega) _ (poss_view _ trivial) with
      hd | ⟨m, hd, -, hm⟩
    · have := hd.symm.trans hdec
      simp at this
    obtain rfl : m = R'.commitRecord := by simpa using hd.symm.trans hdec
    have := hF.generation
    rcases hm with hm | hm | hm
    · simp only [commitRecord] at hm
      omega
    all_goals
      have := congrArg CommitRecord.generation hm
      simp only [commitRecord] at this
      omega
  refine ⟨fails, _, hcall, ?_⟩
  rcases wp_error (wp_replaceCatalog hok snapshot) hcall with
    ⟨-, -, hrest, -⟩ | ⟨-, -, -, -, hstr⟩
  · exact absurd hrest.settled hnot
  have hbitmap := bitmapOf_evolves hstr.frame (.ofFree _ _)
  refine ⟨?_, hblocks, hbitmap⟩
  obtain ⟨R'', hl⟩ := hstr.state.resolve_left hnot
  obtain rfl : R'' = R' := (hl.plan.unique hp).1
  rcases hl.state with ha | hset
  · refine ha.advance fun c hc => ?_
    obtain hc | hc : c = s1.durable _ ∨ (_, c) ∈ s1.pending := hc
    · rw [hc, ← hdec]
      show _ = decodeCommit (replay s1.durable s1.pending _)
      rw [hpend, replay_nil]
    · rw [hpend] at hc
      exact absurd hc List.not_mem_nil
  · exact hset

/-- A device decided for a root whose catalog block holds something else. -/
theorem not_opensToOneOf {R : SystemCatalogRoot} {snapshots : List (List UInt8)} (h : Settled s R)
    (hb : R.catalogBlocks = 1) (hS : ∀ S ∈ snapshots, S ≠ storedBytes (view s) R.catalogStart 1 R.catalogBytes) :
    ¬ OpensToOneOf snapshots s.blocks (view s) := by
  rintro ⟨v, s', catalog, he, hmem, hread⟩
  have hgot := (hread _).symm.trans (readCatalog_of_settled h (by rw [hb]; exact Nat.one_ne_zero) he)
  rw [hb] at hgot
  cases catalog with
  | none => cases hgot
  | some S =>
    rw [readResult] at hgot
    split_ifs at hgot
    exact hS S (hmem S rfl) (Except.ok.inj hgot)

end Behind

/-- **The catalog can be torn.**  The superblock write of a first call fails and so do the reads of its recovery;
a second call then writes its data over the catalog of the first, and fails in the same way. -/
theorem torn_catalog_after_refused_recovery : ∃ snapshots m image, Retried (fun _ => True) snapshots m ∧
    m.store.Survives image ∧ ¬ OpensToOneOf snapshots m.store.blocks image := by
  obtain ⟨v, s, he, hr, hok, hbm, hh⟩ := format_blankDevice
  have hm : Retried (fun _ => True) [] ⟨v, s, false⟩ := .format he
  -- the first call
  have hone : ∀ l : List UInt8, l ≠ [] → l.length ≤ 2 → blocksFor l.length = 1 := by
    intro l hl hl'
    have := List.length_pos_iff.mpr hl
    unfold blocksFor blockBytes
    omega
  obtain ⟨R', bm, hplan, hext, hbytes⟩ := first_catalogPlan hr [1, 1] (by simp) (hone _ (by simp) (by simp))
  rw [← hbm] at hplan
  obtain ⟨fails, s1, hcall1, hset1, hn1, hbm1⟩ := exists_behind hok hplan (hone _ (by simp) (by simp))
  have hm1 : Retried (fun _ => True) [[1, 1]] ⟨v, s1, true⟩ := by
    have := hm.call trivial [1, 1] fails
    rwa [hcall1] at this
  -- the second call
  obtain ⟨R2, bm2, hplan2, hext2, -⟩ := first_catalogPlan hr [2] (by simp) (hone _ (by simp) (by simp))
  have hstart2 : R2.catalogStart = 4 := congrArg Extent.start hext2
  let fails2 : ℕ → Option BlockError := fun n => if n < s1.clock + 2 then none else some .io
  let s2 : CrashStore := ({ s1 with fails := fails2 } : CrashStore).tick.queue 4 (chunkBlock [2] 0)
  have hinner : v.replaceCatalogInner [2] { s1 with fails := fails2 } = (.error (.block .io), s2.tick) := by
    have hp : CatalogPlan v.root (bitmapOf { s1 with fails := fails2 } v.root) [2] R2 bm2 := by
      rw [← hbm, ← hbm1] at hplan2
      exact hplan2
    rw [replaceCatalogInner_eq (by rw [hn1]; exact hok.valid) hp
      (hone _ (by simp) (by simp)) (fun k hk => if_pos (by simp only; omega)), hstart2]
    exact bind_of_error (io_error (writeBlock_fails (if_neg (lt_irrefl _))))
  have hopen : openVolume s2.tick = (.error (.block .io), s2.tick.tick.tick) :=
    openVolume_unreadable (by show v.root.Valid s1.blocks; rw [hn1]; exact hok.valid) fun k hk =>
      if_neg (by show ¬ s1.clock + 3 + k < _; omega)
  have hm2 : Retried (fun _ => True) [[1, 1], [2]] ⟨v, s2.tick.tick.tick, true⟩ := by
    have := hm1.call trivial [2] fails2
    rwa [refail, replaceCatalog_refused hinner hopen] at this
  have hharm : Harmless R' R' (oneWrite 4 (chunkBlock [2] 0)) := by
    rintro j c ⟨rfl, -⟩
    exact .inr (le_refl _)
  have tick : ∀ {s}, Settled s R' → Settled (tick s) R' := fun h => h.evolves (.noWrite _ _) (evolves_tick _)
  have hset2 : Settled s2.tick.tick.tick R' :=
    tick (tick (tick ((tick (hset1.refail fails2)).evolves hharm (evolves_write _ _ _))))
  -- the bytes that are read
  have hstart : R'.catalogStart = 4 := congrArg Extent.start hext
  have hblock : view s2.tick.tick.tick 4 = chunkBlock [2] 0 := by
    simp [s2, view_queue]
  have hfirst : (storedBytes (view s2.tick.tick.tick) R'.catalogStart 1 R'.catalogBytes).getD 0 0 = 2 := by
    rw [hbytes, hstart, getD_storedBytes (by simp) (by simp), hblock, byteAt_chunkBlock _ _ _ (by omega)]
    rfl
  refine ⟨_, _, _, hm2, survives_view _, not_opensToOneOf hset2 (congrArg Extent.blocks hext) fun S hS heq => ?_⟩
  have hlen : (storedBytes (view s2.tick.tick.tick) R'.catalogStart 1 R'.catalogBytes).length = 2 := by
    rw [hbytes, length_storedBytes (by simp)]
    rfl
  rw [← heq] at hfirst hlen
  rcases List.mem_cons.mp hS with rfl | hS
  · simp at hfirst
  · rw [List.mem_singleton.mp hS] at hlen
    simp at hlen

end LogOS.Storage.Catalog
