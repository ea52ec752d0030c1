import LogOS.StorageService.IpcStore

/-!
# What the block cache shows

A read of the store returns what the disk holds as long as every slot that holds the block holds its content.  This is so
until a block that sits in two slots is written: the write reaches the first of them only.  The laws that every program
above a store relies on are therefore proved for the blocks that sit in at most one slot, and the coherence of the whole
cache for the runs in which no other block is written.
-/

namespace LogOS.StorageService

open Lib Abi Storage Storage.Catalog Op Function IpcBlockStore List

namespace IpcBlockStore

variable {T : Type} {s s' : IpcBlockStore T} {i j slot : ℕ} {b c : Block}

/-! ## Copies -/

/-- The slot holds the block. -/
def Copy (s : IpcBlockStore T) (slot j : ℕ) : Prop := slot < cacheSlots ∧ s.cache slot = ⟨j, true⟩

/-- Every slot that holds the block holds this content. -/
def Holds (s : IpcBlockStore T) (j : ℕ) (c : Block) : Prop := ∀ slot, s.Copy slot j → s.pages slot = c

/-- The block sits in at most one slot. -/
def Single (s : IpcBlockStore T) (j : ℕ) : Prop := ∀ slot slot', s.Copy slot j → s.Copy slot' j → slot = slot'

lemma copy_iff : s.Copy slot j ↔ slot < cacheSlots ∧ ((s.cache slot).valid && (s.cache slot).block == j) = true := by
  unfold Copy
  rcases s.cache slot with ⟨k, v⟩
  simp [and_comm]

lemma cachedSlot_eq_some (h : s.cachedSlot j = some slot) : s.Copy slot j := by
  have hp := find?_some h
  exact copy_iff.mpr ⟨mem_range.mp (mem_of_find?_eq_some h), hp⟩

lemma cachedSlot_eq_none (h : s.cachedSlot j = none) (slot : ℕ) : ¬ s.Copy slot j := by
  intro hc
  obtain ⟨hlt, hc⟩ := copy_iff.mp hc
  exact find?_eq_none.mp h slot (mem_range.mpr hlt) hc

lemma unpinnedSlot_eq_some (h : s.unpinnedSlot = some slot) : slot < cacheSlots ∧ s.pinCount slot = 0 := by
  obtain ⟨offset, -, rfl⟩ := mem_map.mp (mem_of_find?_eq_some h)
  exact ⟨Nat.mod_lt _ (by decide), by simpa using find?_some h⟩

/-! ## Filling a slot -/

/-- `input` was put into a slot for the block: one that held the block, or, if there was none, one that was not pinned. -/
structure Filled (block : ℕ) (input : Block) (slot : ℕ) (s s' : IpcBlockStore T) : Prop where
  bound : slot < cacheSlots
  chosen : s.Copy slot block ∨ (∀ slot', ¬ s.Copy slot' block) ∧ s.pinCount slot = 0
  eq : ∃ next, s' = { s with
    nextCacheSlot := next
    cache := Function.update s.cache slot ⟨block, true⟩
    pages := Function.update s.pages slot input }

lemma fillCache_cases (block : ℕ) (input : Block) (s : IpcBlockStore T) :
    (∃ slot s', fillCache block input s = (.ok (), s') ∧ Filled block input slot s s') ∨
      fillCache block input s = (.ok (), s) ∧ ∀ slot, ¬ s.Copy slot block := by
  rw [fillCache, attempt_bind, reserveCacheSlot]
  rcases hc : s.cachedSlot block with _ | slot
  · rcases hu : s.unpinnedSlot with _ | slot
    · exact .inr ⟨rfl, cachedSlot_eq_none hc⟩
    · obtain ⟨hlt, hpin⟩ := unpinnedSlot_eq_some hu
      exact .inl ⟨slot, _, rfl, hlt, .inr ⟨cachedSlot_eq_none hc, hpin⟩, _, rfl⟩
  · have hcopy := cachedSlot_eq_some hc
    refine .inl ⟨slot, _, rfl, hcopy.1, .inl hcopy, s.nextCacheSlot, ?_⟩
    rw [← hcopy.2, update_eq_self]
    rfl

namespace Filled

lemma copy_iff {slot' : ℕ} (h : Filled i b slot s s') : s'.Copy slot' j ↔ slot' = slot ∧ j = i ∨ slot' ≠ slot ∧ s.Copy slot' j := by
  obtain ⟨hlt, -, next, rfl⟩ := h
  unfold Copy
  by_cases hs : slot' = slot
  · subst hs
    simp [hlt, eq_comm]
  · simp [hs]

section

variable (h : Filled i b slot s s')
include h

lemma holds_of_ne (hj : j ≠ i) (hc : s.Holds j c) : s'.Holds j c := by
  intro slot' hcopy
  rcases h.copy_iff.mp hcopy with ⟨-, hji⟩ | ⟨hne, hcopy⟩
  · exact absurd hji hj
  · have hold := hc slot' hcopy
    obtain ⟨-, -, next, rfl⟩ := h
    exact (update_of_ne hne _ _).trans hold

lemma single (hs : s.Single j) : s'.Single j := by
  intro k k' hk hk'
  rcases h.copy_iff.mp hk with ⟨rfl, rfl⟩ | ⟨hne, hk⟩ <;> rcases h.copy_iff.mp hk' with ⟨rfl, hji⟩ | ⟨hne', hk'⟩
  · rfl
  · exact h.chosen.elim (fun hc => hs _ _ hc hk') fun hc => absurd hk' (hc.1 k')
  · subst hji
    exact h.chosen.elim (hs _ _ hk) fun hc => absurd hk (hc.1 k)
  · exact hs _ _ hk hk'

/-- After the fill all copies hold the new content, if there was at most one before … -/
theorem holds_of_single (hs : s.Single i) : s'.Holds i b := by
  intro k hk
  obtain rfl : k = slot := h.single hs k slot hk (h.copy_iff.mpr (.inl ⟨rfl, rfl⟩))
  obtain ⟨-, -, next, rfl⟩ := h
  exact update_self _ _ _

/-- … or if they all held it before. -/
theorem holds_of_holds (hb : s.Holds i b) : s'.Holds i b := by
  intro k hk
  rcases h.copy_iff.mp hk with ⟨rfl, -⟩ | ⟨hne, hk⟩
  · obtain ⟨-, -, next, rfl⟩ := h
    exact update_self _ _ _
  · have hold := hb k hk
    obtain ⟨-, -, next, rfl⟩ := h
    exact (update_of_ne hne _ _).trans hold

end

end Filled

/-! ## Pins -/

lemma mapWindow_eq_some {blocks first : ℕ} (hb : blocks ≤ cacheSlots) (h : s.mapWindow blocks = some first) :
    first + blocks ≤ cacheSlots ∧ ∀ o < blocks, s.pinCount (first + o) = 0 := by
  have hmem := mem_range.mp (mem_of_find?_eq_some h)
  have hall := find?_some h
  simp only [all_eq_true, mem_range, beq_iff_eq] at hall
  exact ⟨by omega, hall⟩

lemma wp_unmapRead {m : ReadMap} :
    wp (unmapRead m) (fun _ s' => (∀ o < m.pages, s.pinCount (m.sourcePage + o) ≠ 0) ∧
        s' = { s with pinCount := fun p =>
          if m.sourcePage ≤ p ∧ p < m.sourcePage + m.pages then s.pinCount p - 1 else s.pinCount p })
      (fun _ s' => s' = s) s := by
  refine wp_guard_seq (fun _ => rfl) fun _ => ?_
  rw [wp_bind, wp_get, wp_bind, wp_guard]
  simpa using hpins

/-! ## Requests that are answered -/

section Exchange

variable [KernelStorageIpc T] [FaithfulIpc T]

/-- The store can be asked for a block. -/
structure Ready (s : IpcBlockStore T) : Prop where
  serves : FaithfulIpc.Serves s.transport s.capability s.blocks
  generation : s.generation = s.capability.generation
  epoch : s.serviceEpoch = s.capability.serviceEpoch
  request : s.nextRequest ≠ 0

/-- A request was answered: the transport, the request number and the staging page changed, and nothing else. -/
structure Exchanged (operation : StorageOperation) (i : ℕ) (s s' : IpcBlockStore T) : Prop where
  ready : Ready s'
  eq : ∃ t r b, s' = { s with transport := t, nextRequest := r, staging := b }
  disk : disk s'.transport =
    if operation = .write then Function.update (disk s.transport) i s.staging else FaithfulIpc.disk s.transport
  staged : operation = .read → s'.staging = FaithfulIpc.disk s.transport i

lemma wp_roundTrip {request : StorageRequest} (hs : s.Ready) (hr : Asks s.capability s.blocks request) :
    wp (roundTrip request) (fun _ s' => Exchanged request.operation request.startBlock s s') (fun _ _ => False) s := by
  have hsend := FaithfulIpc.send_ok s.staging hs.serves hr
  obtain ⟨count, t', b', hpoll, hserves, hdisk, hstaged⟩ := FaithfulIpc.answers s.staging
    (.new request.requestId .invalid request.generation 0 0 request.transactionId) hs.serves hr
  simp only [roundTrip, wp_bind, wp_get, hsend, hpoll, mapIpcStatus, mapStorageStatus]
  simp only [answerTo, StorageResponse.new, forall_const, reduceCtorEq, false_implies, and_true, implies_true, beq_self_eq_true,
    bne_self_eq_false, Bool.and_false]
  exact ⟨⟨hserves, hs.generation, hs.epoch, hs.request⟩, ⟨t', s.nextRequest, b', rfl⟩, hdisk, hstaged⟩

lemma request_ne_zero (n : ℕ) : max ((n + 1) % 2 ^ 32) 1 ≠ 0 := by omega

variable {operation : StorageOperation}

lemma wp_request {blocks bytes : ℕ} (hs : s.Ready)
    (h : (operation = .read ∨ operation = .write) ∧ blocks = 1 ∧ bytes = blockBytes ∨
      operation = .flush ∧ blocks = 0 ∧ bytes = 0) :
    wp (request operation blocks bytes)
      (fun r s' => s' = { s with nextRequest := max ((s.nextRequest + 1) % 2 ^ 32) 1 } ∧ r.operation = operation ∧
        r.generation = s.capability.generation ∧ r.serviceEpoch = s.capability.serviceEpoch) (fun _ _ => False) s := by
  have hg : s.generation ≠ 0 := hs.generation ▸ s.capability.generation_ne
  have he : s.serviceEpoch ≠ 0 := hs.epoch ▸ s.capability.epoch_ne
  have hnew : StorageRequest.new operation s.nextRequest s.generation s.serviceEpoch 0 blocks bytes 0 =
      some ⟨operation, 0, s.nextRequest, s.generation, s.serviceEpoch, 0, blocks, bytes, 0⟩ := by
    unfold StorageRequest.new
    rcases h with ⟨rfl | rfl, rfl, rfl⟩ | ⟨rfl, rfl, rfl⟩ <;>
      simp [hs.request, hg, he, storageMaxBlocksPerRequest, blockBytes, ipcPageBytes, storageBlockBytes]
  simp only [request, wp_bind, wp_get, wp_modify, hnew, wp_orFail]
  refine ⟨?_, fun h => (by cases h)⟩
  rintro r hr
  cases hr
  exact ⟨trivial, rfl, hs.generation, hs.epoch⟩

lemma Ready.count (hs : s.Ready) (n : ℕ) (hn : n ≠ 0) : Ready { s with nextRequest := n } :=
  ⟨hs.serves, hs.generation, hs.epoch, hn⟩

lemma wp_blockRequest (hs : s.Ready) (hop : operation = .read ∨ operation = .write) (hi : i < s.blocks) :
    wp (blockRequest operation i) (fun _ s' => Exchanged operation i s s') (fun _ _ => False) s := by
  refine wp_seq (wp_request hs (.inl ⟨hop, rfl, rfl⟩)) ?_
  rintro r _ ⟨rfl, rfl, hg, he⟩
  refine wp_seq (wp_roundTrip (hs.count _ (request_ne_zero _)) ⟨hg, he, fun _ => hi⟩) ?_
  rintro - s' ⟨hready, ⟨t, n, b, rfl⟩, hdisk, hstaged⟩
  exact ⟨hready, ⟨t, n, b, rfl⟩, hdisk, hstaged⟩

lemma wp_flush (hs : s.Ready) : wp flush (fun _ s' => Exchanged .flush 0 s s') (fun _ _ => False) s := by
  refine wp_seq (wp_request hs (.inr ⟨rfl, rfl, rfl⟩)) ?_
  rintro r _ ⟨rfl, hop, hg, he⟩
  refine wp_seq (wp_roundTrip (hs.count _ (request_ne_zero _)) ⟨hg, he, fun h => ?_⟩) ?_
  · rw [StorageRequest.isBlockIo, hop] at h
    cases h
  · rintro - s' ⟨hready, ⟨t, n, b, rfl⟩, hdisk, -⟩
    rw [hop] at hdisk
    exact ⟨hready, ⟨t, n, b, rfl⟩, hdisk, nofun⟩

/-! ## Reads and writes -/

/-- A block was exchanged with the disk and put into its slot, if it has or got one. -/
def Stored (operation : StorageOperation) (i : ℕ) (b : Block) (s s' : IpcBlockStore T) : Prop :=
  ∃ s₁, Exchanged operation i s s₁ ∧ ((∃ slot, Filled i b slot s₁ s') ∨ s' = s₁ ∧ ∀ slot, ¬ s₁.Copy slot i)

namespace Stored

variable {operation : StorageOperation}

section

variable (h : Stored operation i b s s')
include h

lemma ready : s'.Ready := by
  obtain ⟨s1, hex, ⟨slot, -, -, next, rfl⟩ | ⟨rfl, -⟩⟩ := h
  · exact ⟨hex.ready.serves, hex.ready.generation, hex.ready.epoch, hex.ready.request⟩
  · exact hex.ready

lemma disk_eq : disk s'.transport =
    if operation = .write then update (disk s.transport) i s.staging else disk s.transport := by
  obtain ⟨s1, hex, ⟨slot, -, -, next, rfl⟩ | ⟨rfl, -⟩⟩ := h <;> exact hex.disk

lemma blocks_eq : s'.blocks = s.blocks := by
  obtain ⟨s1, ⟨-, ⟨t, r, c, rfl⟩, -, -⟩, ⟨slot, -, -, next, rfl⟩ | ⟨rfl, -⟩⟩ := h <;> rfl

lemma pinCount_eq : s'.pinCount = s.pinCount := by
  obtain ⟨s1, ⟨-, ⟨t, r, c, rfl⟩, -, -⟩, ⟨slot, -, -, next, rfl⟩ | ⟨rfl, -⟩⟩ := h <;> rfl

lemma holds_of_ne (hj : j ≠ i) (hc : s.Holds j c) : s'.Holds j c := by
  obtain ⟨s1, ⟨-, ⟨t, r, d, rfl⟩, -, -⟩, ⟨slot, hf⟩ | ⟨rfl, -⟩⟩ := h
  · exact hf.holds_of_ne hj hc
  · exact hc

lemma single (hs : s.Single j) : s'.Single j := by
  obtain ⟨s1, ⟨-, ⟨t, r, d, rfl⟩, -, -⟩, ⟨slot, hf⟩ | ⟨rfl, -⟩⟩ := h
  · exact hf.single hs
  · exact hs

lemma holds_of_single (hs : s.Single i) : s'.Holds i b := by
  obtain ⟨s1, ⟨-, ⟨t, r, d, rfl⟩, -, -⟩, ⟨slot, hf⟩ | ⟨rfl, hno⟩⟩ := h
  · exact hf.holds_of_single hs
  · exact fun slot hc => absurd hc (hno slot)

lemma holds_of_holds (hb : s.Holds i b) : s'.Holds i b := by
  obtain ⟨s1, ⟨-, ⟨t, r, d, rfl⟩, -, -⟩, ⟨slot, hf⟩ | ⟨rfl, hno⟩⟩ := h
  · exact hf.holds_of_holds hb
  · exact hb

/-- A pinned page still shows its block, with the old content or with the one that was stored. -/
theorem pinned {p : ℕ} (hp : s.pinCount p ≠ 0) :
    s'.cache p = s.cache p ∧ (s'.pages p = s.pages p ∨ s.cache p = ⟨i, true⟩ ∧ s'.pages p = b) := by
  obtain ⟨s1, ⟨-, ⟨t, r, d, rfl⟩, -, -⟩, ⟨slot, -, hch, next, rfl⟩ | ⟨rfl, -⟩⟩ := h
  · by_cases hs : p = slot
    · subst hs
      have hcopy : s.cache p = ⟨i, true⟩ := (hch.resolve_right fun hn => hp hn.2).2
      exact ⟨(update_self _ _ _).trans hcopy.symm, .inr ⟨hcopy, update_self _ _ _⟩⟩
    · exact ⟨update_of_ne hs _ _, .inl (update_of_ne hs _ _)⟩
  · exact ⟨rfl, .inl rfl⟩

end

end Stored

lemma wp_fillCache {s1 : IpcBlockStore T} (hex : Exchanged operation i s s1) :
    wp (fillCache i b) (fun _ s' => Stored operation i b s s') (fun _ _ => False) s1 := by
  rcases fillCache_cases i b s1 with ⟨slot, s', heq, hf⟩ | ⟨heq, hno⟩
  · unfold wp
    rw [heq]
    exact ⟨s1, hex, .inl ⟨slot, hf⟩⟩
  · unfold wp
    rw [heq]
    exact ⟨s1, hex, .inr ⟨rfl, hno⟩⟩

lemma wp_readBlockUncached (hs : s.Ready) :
    wp (readBlockUncached i) (fun b s' => Exchanged .read i s s' ∧ b = disk s.transport i)
      (fun _ s' => s' = s ∧ ¬ i < s.blocks) s := by
  refine wp_guard_seq (fun hi => ⟨rfl, by simpa using hi⟩) fun hi => ?_
  refine wp_step (wp_blockRequest hs (.inl rfl) (by simpa using hi)) ?_ (fun _ _ h => h.elim)
  rintro - s' hex
  exact ⟨hex, hex.staged rfl⟩

lemma wp_readBlock (hs : s.Ready) :
    wp (readBlock i) (fun b s' => (∃ slot, s.Copy slot i ∧ b = s.pages slot ∧ s' = s) ∨
        (∀ slot, ¬ s.Copy slot i) ∧ b = disk s.transport i ∧ Stored .read i b s s')
      (fun _ s' => s' = s ∧ ¬ i < s.blocks) s := by
  refine wp_guard_seq (fun hi => ⟨rfl, by simpa using hi⟩) fun hi => ?_
  rcases hc : s.cachedSlot i with _ | slot
  · simp only [wp_bind]
    refine wp_mono (wp_blockRequest hs (.inl rfl) (by simpa using hi)) ?_ (fun _ _ h => h.elim)
    rintro - s1 hex
    rw [wp_get]
    refine wp_mono (wp_fillCache hex) ?_ (fun _ _ h => h.elim)
    rintro - s' hst
    exact .inr ⟨cachedSlot_eq_none hc, hex.staged rfl, hst⟩
  · exact .inl ⟨slot, cachedSlot_eq_some hc, rfl, rfl⟩

lemma wp_writeBlock (hs : s.Ready) :
    wp (writeBlock i b) (fun _ s' => i < s.blocks ∧ Stored .write i b { s with staging := b } s')
      (fun _ s' => s' = s ∧ ¬ i < s.blocks) s := by
  refine wp_guard_seq (fun hi => ⟨rfl, by simpa using hi⟩) fun hi => ?_
  have hi : i < s.blocks := by simpa using hi
  have hs' : Ready { s with staging := b } := ⟨hs.serves, hs.generation, hs.epoch, hs.request⟩
  simp only [wp_bind, wp_modify]
  refine wp_mono (wp_blockRequest hs' (.inr rfl) hi) ?_ (fun _ _ h => h.elim)
  rintro - s1 hex
  exact wp_mono (wp_fillCache hex) (fun _ _ h => ⟨hi, h⟩) (fun _ _ h => h.elim)

/-! ## Mappings -/

/-- The `n` slots from `first` on were loaded with the blocks from `start` on, and pinned; the others are as they were. -/
structure Mapped (start first n : ℕ) (s s' : IpcBlockStore T) : Prop where
  ready : s'.Ready
  blocks : s'.blocks = s.blocks
  disk : disk s'.transport = disk s.transport
  inside : ∀ o < n, s'.cache (first + o) = ⟨start + o, true⟩ ∧ s'.pinCount (first + o) = 1 ∧
    s'.pages (first + o) = FaithfulIpc.disk s.transport (start + o)
  outside : ∀ p, ¬ (first ≤ p ∧ p < first + n) →
    s'.cache p = s.cache p ∧ s'.pinCount p = s.pinCount p ∧ s'.pages p = s.pages p

lemma Mapped.holds {start first n : ℕ} (h : Mapped start first n s s') (hs : s.Holds j (FaithfulIpc.disk s.transport j)) :
    s'.Holds j (FaithfulIpc.disk s'.transport j) := by
  rintro p ⟨hp, hc⟩
  by_cases hin : first ≤ p ∧ p < first + n
  · obtain ⟨hcache, -, hpage⟩ := h.inside (p - first) (by omega)
    rw [show first + (p - first) = p by omega] at hcache hpage
    obtain rfl : start + (p - first) = j := by simpa [hcache] using hc
    rw [hpage, h.disk]
  · obtain ⟨hcache, -, hpage⟩ := h.outside p hin
    rw [hpage, h.disk]
    exact hs p ⟨hp, hcache ▸ hc⟩

lemma wp_loadCacheSlot (hs : s.Ready) (hi : i < s.blocks) : wp (loadCacheSlot i slot) (fun _ s' => ∃ t r,
        Exchanged .read i s { s with transport := t, nextRequest := r, staging := disk s.transport i } ∧ s' = { s with
          transport := t
          nextRequest := r
          staging := disk s.transport i
          cache := update s.cache slot ⟨i, true⟩
          pages := update s.pages slot (disk s.transport i) }) (fun _ _ => False) s := by
  refine wp_seq (wp_blockRequest hs (.inl rfl) hi) ?_
  rintro - s1 hex
  obtain ⟨t, r, b, rfl⟩ := hex.eq
  obtain rfl : b = disk s.transport i := hex.staged rfl
  exact ⟨t, r, hex, rfl⟩

lemma wp_mapLoop {start first : ℕ} {s0 : IpcBlockStore T} :
    ∀ (n offset : ℕ) (s : IpcBlockStore T), start + offset + n ≤ s0.blocks → Mapped start first offset s0 s →
      wp (mapLoop start first n offset) (fun _ s' => Mapped start first (offset + n) s0 s') (fun _ _ => False) s
  | 0, _, _, _, h => h
  | n + 1, offset, s, hle, h => by
    rw [mapLoop, wp_bind, wp_attempt]
    refine wp_mono (wp_loadCacheSlot h.ready (by rw [h.blocks]; omega)) ?_ (fun _ _ h => h.elim)
    rintro - _ ⟨t, r, hex, rfl⟩
    rw [show offset + (n + 1) = offset + 1 + n by omega]
    refine wp_mapLoop n (offset + 1) _ (by omega) ⟨?_, h.blocks, ?_, ?_, ?_⟩
    · exact ⟨hex.ready.serves, hex.ready.generation, hex.ready.epoch, hex.ready.request⟩
    · exact hex.disk.trans h.disk
    · intro o ho
      by_cases hoo : o = offset
      · subst hoo
        refine ⟨update_self _ _ _, update_self _ _ _, (update_self _ _ _).trans ?_⟩
        rw [h.disk]
      · have hne : first + o ≠ first + offset := by omega
        obtain ⟨h1, h2, h3⟩ := h.inside o (by omega)
        exact ⟨(update_of_ne hne _ _).trans h1, (update_of_ne hne _ _).trans h2, (update_of_ne hne _ _).trans h3⟩
    · intro p hp
      have hne : p ≠ first + offset := by omega
      obtain ⟨h1, h2, h3⟩ := h.outside p (by omega)
      exact ⟨(update_of_ne hne _ _).trans h1, (update_of_ne hne _ _).trans h2, (update_of_ne hne _ _).trans h3⟩

lemma wp_mapReadBlocks {start blocks : ℕ} (hs : s.Ready) :
    wp (mapReadBlocks start blocks) (fun m s' => m.pages = blocks ∧ blocks ≠ 0 ∧ m.sourcePage + blocks ≤ cacheSlots ∧
        start + blocks ≤ s.blocks ∧ (∀ o < blocks, s.pinCount (m.sourcePage + o) = 0) ∧
        Mapped start m.sourcePage blocks s s') (fun _ s' => s' = s) s := by
  refine wp_guard_seq (fun _ => rfl) fun hb => ?_
  simp only [Bool.not_eq_true', Bool.or_eq_false_iff, beq_eq_false_iff_ne, decide_eq_false_iff_not] at hb
  rw [wp_bind, wp_orFail]
  refine ⟨fun stop hstop => ?_, fun _ => rfl⟩
  obtain ⟨-, rfl⟩ := checkedAdd_eq_some.mp hstop
  refine wp_guard_seq (fun _ => rfl) fun hle => ?_
  have hle : start + blocks ≤ s.blocks := by simpa using hle
  rw [wp_bind, wp_orFail]
  refine ⟨fun first hfirst => ?_, fun _ => rfl⟩
  have hmax : blocks ≤ cacheSlots := le_trans (not_lt.mp hb.2) (by decide)
  obtain ⟨hend, hfree⟩ := mapWindow_eq_some hmax hfirst
  rw [wp_bind]
  have hstart : Mapped start first 0 s s := ⟨hs, rfl, rfl, fun o ho => absurd ho (Nat.not_lt_zero o), fun _ _ => ⟨rfl, rfl, rfl⟩⟩
  refine wp_mono (wp_mapLoop blocks 0 s (by omega) hstart) ?_ (fun _ _ h => h.elim)
  rintro - s' hm
  rw [zero_add] at hm
  exact ⟨rfl, hb.1, hend, hle, hfree, hm⟩

/-! ## The laws of a store -/

/-- The disk as the service sees it.  A block is read faithfully while it sits in at most one slot, with the content of the
disk; a write keeps that up, and only a mapping can end it. -/
instance : StoreModel (IpcBlockStore T) where
  Inv s := s.Ready
  view s := disk s.transport
  poss s i c := c = disk s.transport i
  faithful s j := s.Single j ∧ s.Holds j (disk s.transport j)
  page s p := if p < cacheSlots ∧ s.pinCount p ≠ 0 then some ((s.cache p).block, s.pages p) else none
  Healthy _ := True

lemma evolves_of {W : ℕ → Block → Prop} (hready : s'.Ready) (hblocks : s'.blocks = s.blocks)
    (hpins : s'.pinCount = s.pinCount)
    (hdisk : ∀ j, disk s'.transport j = disk s.transport j ∨ W j (disk s'.transport j))
    (hfaithful : ∀ j, faithful s j → faithful s' j)
    (hpage : ∀ p < cacheSlots, s.pinCount p ≠ 0 → s'.cache p = s.cache p ∧
      (s'.pages p = s.pages p ∨ W (s.cache p).block (s'.pages p))) : Evolves W s s' where
  inv _ := hready
  count := hblocks
  healthy _ := trivial
  faithful := hfaithful
  poss j c hc := (hdisk j).imp hc.trans fun h => hc ▸ h
  view := hdisk
  page p j c hp := by
    have hp : (if p < cacheSlots ∧ s.pinCount p ≠ 0 then some ((s.cache p).block, s.pages p) else none) = some (j, c) := hp
    split at hp
    · next hpin =>
      cases hp
      have hpage' : page s' p = some ((s'.cache p).block, s'.pages p) := if_pos ⟨hpin.1, hpins ▸ hpin.2⟩
      obtain ⟨hcache, hcontent⟩ := hpage p hpin.1 hpin.2
      rw [hpage', hcache]
      rcases hcontent with heq | hw
      · exact .inl (by rw [heq])
      · exact .inr ⟨_, hw, rfl⟩
    · cases hp

lemma Exchanged.evolves (h : Exchanged operation i s s') (hop : operation ≠ .write) : Evolves noWrite s s' := by
  have hd : FaithfulIpc.disk s'.transport = FaithfulIpc.disk s.transport := h.disk.trans (if_neg hop)
  obtain ⟨t, r, b, rfl⟩ := h.eq
  refine evolves_of h.ready rfl rfl (fun j => .inl (congrFun hd j)) ?_ (fun p _ _ => ⟨rfl, .inl rfl⟩)
  rintro j ⟨hsingle, hholds⟩
  refine ⟨hsingle, ?_⟩
  intro slot hc
  exact (hholds slot hc).trans (congrFun hd j).symm

lemma Stored.evolves_read (h : Stored .read i b s s') (hb : b = disk s.transport i) (hno : ∀ slot, ¬ s.Copy slot i) :
    Evolves noWrite s s' := by
  have hd : disk s'.transport = disk s.transport := h.disk_eq
  refine evolves_of h.ready h.blocks_eq h.pinCount_eq (fun j => .inl (congrFun hd j)) ?_ ?_
  · rintro j ⟨hsingle, hholds⟩
    refine ⟨h.single hsingle, ?_⟩
    show s'.Holds j (disk s'.transport j)
    rw [hd]
    by_cases hj : j = i
    · subst hj
      exact hb ▸ h.holds_of_single hsingle
    · exact h.holds_of_ne hj hholds
  · intro p hlt hp
    obtain ⟨hcache, hpages | ⟨hcopy, -⟩⟩ := h.pinned hp
    · exact ⟨hcache, .inl hpages⟩
    · exact absurd ⟨hlt, hcopy⟩ (hno p)

lemma Stored.evolves_write (h : Stored .write i b { s with staging := b } s') :
    Evolves (oneWrite i b) s s' ∧ disk s'.transport i = b := by
  have hd : disk s'.transport = update (disk s.transport) i b := h.disk_eq
  have hi : disk s'.transport i = b := by rw [hd, update_self]
  refine ⟨evolves_of h.ready h.blocks_eq h.pinCount_eq ?_ ?_ ?_, hi⟩
  · intro j
    by_cases hj : j = i
    · exact .inr ⟨hj, hj ▸ hi⟩
    · exact .inl (by rw [hd, update_of_ne hj])
  · rintro j ⟨hsingle, hholds⟩
    refine ⟨h.single hsingle, ?_⟩
    show s'.Holds j (disk s'.transport j)
    by_cases hj : j = i
    · subst hj
      rw [hi]
      exact h.holds_of_single hsingle
    · rw [hd, update_of_ne hj]
      exact h.holds_of_ne hj hholds
  · intro p _ hp
    obtain ⟨hcache, hpages | ⟨hcopy, hpages⟩⟩ := h.pinned hp
    · exact ⟨hcache, .inl hpages⟩
    · exact ⟨hcache, .inr ⟨by rw [hcopy], hpages⟩⟩

instance : LawfulStore (IpcBlockStore T) where
  poss_view _ _ := rfl
  read_law i hs := by
    refine Op.wp_mono (wp_readBlock hs) ?_ ?_
    · rintro b s' (⟨slot, hcopy, rfl, rfl⟩ | ⟨hno, rfl, hst⟩)
      · exact ⟨Evolves.refl _ _, fun hf => hf.2 slot hcopy⟩
      · exact ⟨hst.evolves_read rfl hno, fun _ => rfl⟩
    · rintro - s' ⟨rfl, hi⟩
      exact ⟨Evolves.refl _ _, fun _ => hi⟩
  readUncached_law i hs := by
    refine Op.wp_mono (wp_readBlockUncached hs) ?_ ?_
    · rintro b s' ⟨hex, rfl⟩
      exact ⟨hex.evolves (by decide), rfl⟩
    · rintro - s' ⟨rfl, hi⟩
      exact ⟨Evolves.refl _ _, fun _ => hi⟩
  write_law i b hs := by
    refine Op.wp_mono (wp_writeBlock hs) ?_ ?_
    · rintro - s' ⟨-, hst⟩
      exact hst.evolves_write
    · rintro - s' ⟨rfl, hi⟩
      exact ⟨Evolves.refl _ _, fun _ => hi⟩
  flush_law hs := by
    refine Op.wp_mono (wp_flush hs) ?_ (fun _ _ h => h.elim)
    rintro - s' hex
    exact ⟨hex.evolves (by decide), fun _ _ h => h⟩

/-! ## Runs of the cache -/

/-- A call of the block store. -/
inductive CacheCall where
  | readBlock (index : ℕ)
  | readBlockUncached (index : ℕ)
  | writeBlock (index : ℕ) (input : Block)
  | flush
  | mapReadBlocks (start blocks : ℕ)
  | unmapRead (mapping : ReadMap)

/-- A store in use: `content` is what was last written to each block, or its first content, and `shown` says which block
was mapped to a page that is still pinned. -/
structure CacheSession (T : Type) where
  store : IpcBlockStore T
  content : ℕ → Block
  shown : ℕ → Option ℕ

namespace CacheSession

def start (store : IpcBlockStore T) : CacheSession T := ⟨store, disk store.transport, fun _ => none⟩

def step (s : CacheSession T) : CacheCall → CacheSession T
  | .readBlock index => { s with store := (readBlock index s.store).2 }
  | .readBlockUncached index => { s with store := (readBlockUncached index s.store).2 }
  | .writeBlock index input =>
    match writeBlock index input s.store with
    | (.ok _, store) => { s with store := store, content := Function.update s.content index input }
    | (.error _, store) => { s with store := store }
  | .flush => { s with store := (flush s.store).2 }
  | .mapReadBlocks start blocks =>
    match mapReadBlocks start blocks s.store with
    | (.ok m, store) => { s with
        store := store
        shown := fun p =>
          if m.sourcePage ≤ p ∧ p < m.sourcePage + m.pages then some (start + (p - m.sourcePage)) else s.shown p }
    | (.error _, store) => { s with store := store }
  | .unmapRead m =>
    match unmapRead m s.store with
    | (.ok _, store) => { s with
        store := store
        shown := fun p => if m.sourcePage ≤ p ∧ p < m.sourcePage + m.pages then none else s.shown p }
    | (.error _, store) => { s with store := store }

/-- The states of a store that was just set up, and of its runs in which a block is written only while it sits in at most
one slot. -/
inductive Reached : CacheSession T → Prop
  | start {transport : T} {capability : StorageCapability} {blocks : ℕ} {pages : ℕ → Block} {store : IpcBlockStore T}
      (hserves : FaithfulIpc.Serves transport capability blocks)
      (hnew : IpcBlockStore.new transport capability blocks pages = .ok store) : Reached (.start store)
  | step {s : CacheSession T} (h : Reached s) (call : CacheCall)
      (hwrite : ∀ i b, call = .writeBlock i b → s.store.Single i) : Reached (s.step call)

/-- What every such state satisfies: all slots hold what was last written, and the pins are those of the mappings. -/
structure Coherent (s : CacheSession T) : Prop where
  ready : s.store.Ready
  disk : disk s.store.transport = s.content
  holds : ∀ j, s.store.Holds j (s.content j)
  shown : ∀ p j, s.shown p = some j → p < cacheSlots ∧ s.store.cache p = ⟨j, true⟩
  pins : ∀ p, s.store.pinCount p = if (s.shown p).isSome then 1 else 0

namespace Coherent

variable {s : CacheSession T} {store : IpcBlockStore T}

/-- A change of the store that keeps the pinned slots where they are. -/
theorem of_store {content : ℕ → Block} (h : Coherent s) (hready : store.Ready)
    (hdisk : FaithfulIpc.disk store.transport = content) (hholds : ∀ j, store.Holds j (content j))
    (hpins : store.pinCount = s.store.pinCount) (hcache : ∀ p, s.store.pinCount p ≠ 0 → store.cache p = s.store.cache p) :
    Coherent ⟨store, content, s.shown⟩ where
  ready := hready
  disk := hdisk
  holds := hholds
  shown p j hp := ⟨(h.shown p j hp).1,
    (hcache p (by rw [h.pins, if_pos (Option.isSome_of_eq_some hp)]; exact Nat.one_ne_zero)).trans (h.shown p j hp).2⟩
  pins p := (congrFun hpins p).trans (h.pins p)

lemma exchanged (h : Coherent s) (hop : operation ≠ .write)
    (hex : Exchanged operation i s.store store) : Coherent { s with store := store } := by
  have hd : FaithfulIpc.disk store.transport = FaithfulIpc.disk s.store.transport := hex.disk.trans (if_neg hop)
  obtain ⟨t, r, b, rfl⟩ := hex.eq
  exact h.of_store hex.ready (hd.trans h.disk) h.holds rfl fun _ _ => rfl

lemma read (h : Coherent s) (hst : Stored .read i (s.content i) s.store store) : Coherent { s with store := store } := by
  refine h.of_store hst.ready (hst.disk_eq.trans h.disk) ?_ hst.pinCount_eq fun p hp => (hst.pinned hp).1
  intro j
  by_cases hj : j = i
  · subst hj
    exact hst.holds_of_holds (h.holds j)
  · exact hst.holds_of_ne hj (h.holds j)

lemma write (h : Coherent s) (hsingle : s.store.Single i) (hst : Stored .write i b { s.store with staging := b } store) :
    Coherent { s with store := store, content := update s.content i b } := by
  have hd : FaithfulIpc.disk store.transport = update s.content i b := by
    rw [← h.disk]
    exact hst.disk_eq
  refine h.of_store hst.ready hd ?_ hst.pinCount_eq fun p hp => (hst.pinned hp).1
  intro j
  by_cases hj : j = i
  · subst hj
    rw [update_self]
    exact hst.holds_of_single hsingle
  · rw [update_of_ne hj]
    exact hst.holds_of_ne hj (h.holds j)

lemma map {start first n : ℕ} (h : Coherent s) (hend : first + n ≤ cacheSlots) (hm : Mapped start first n s.store store) :
    Coherent { s with
      store := store
      shown := fun p => if first ≤ p ∧ p < first + n then some (start + (p - first)) else s.shown p } where
  ready := hm.ready
  disk := hm.disk.trans h.disk
  holds j := by
    have hj : s.store.Holds j (FaithfulIpc.disk s.store.transport j) := by
      rw [h.disk]
      exact h.holds j
    have := hm.holds hj
    rwa [hm.disk, h.disk] at this
  shown p j hp := by
    dsimp only at hp ⊢
    split at hp
    · next hin =>
      cases hp
      refine ⟨by omega, ?_⟩
      have := (hm.inside (p - first) (by omega)).1
      rwa [show first + (p - first) = p by omega] at this
    · next hout => exact ⟨(h.shown p j hp).1, (hm.outside p hout).1.trans (h.shown p j hp).2⟩
  pins p := by
    dsimp only
    split
    · have := (hm.inside (p - first) (by omega)).2.1
      rwa [show first + (p - first) = p by omega] at this
    · next hout => rw [(hm.outside p hout).2.1, h.pins]

lemma unmap {first n : ℕ} (h : Coherent s) : Coherent { s with
      store := { s.store with
        pinCount := fun p => if first ≤ p ∧ p < first + n then s.store.pinCount p - 1 else s.store.pinCount p }
      shown := fun p => if first ≤ p ∧ p < first + n then none else s.shown p } where
  ready := ⟨h.ready.serves, h.ready.generation, h.ready.epoch, h.ready.request⟩
  disk := h.disk
  holds := h.holds
  shown p j hp := by
    dsimp only at hp
    split at hp
    · cases hp
    · exact h.shown p j hp
  pins p := by
    dsimp only
    split
    · have := h.pins p
      split at this <;> simp [this]
    · exact h.pins p

lemma step (h : Coherent s) (call : CacheCall) (hwrite : ∀ i b, call = .writeBlock i b → s.store.Single i) :
    Coherent (s.step call) := by
  cases call with
  | readBlock index =>
    apply state_of_wp (P := fun store => Coherent { s with store := store })
    refine wp_mono (wp_readBlock h.ready) ?_ ?_
    · rintro b store (⟨-, -, -, rfl⟩ | ⟨-, rfl, hst⟩)
      · exact h
      · rw [h.disk] at hst
        exact h.read hst
    · rintro - store ⟨rfl, -⟩
      exact h
  | readBlockUncached index =>
    apply state_of_wp (P := fun store => Coherent { s with store := store })
    refine wp_mono (wp_readBlockUncached h.ready) ?_ ?_
    · rintro - store ⟨hex, -⟩
      exact h.exchanged (by decide) hex
    · rintro - store ⟨rfl, -⟩
      exact h
  | writeBlock index input =>
    have hw := wp_writeBlock (i := index) (b := input) h.ready
    rw [CacheSession.step]
    rcases hrun : writeBlock index input s.store with ⟨_ | _, store⟩
    · obtain ⟨rfl, -⟩ := wp_error hw hrun
      exact h
    · exact h.write (hwrite index input rfl) (wp_ok hw hrun).2
  | flush =>
    apply state_of_wp (P := fun store => Coherent { s with store := store })
    exact wp_mono (wp_flush h.ready) (fun _ _ hex => h.exchanged (by decide) hex) (fun _ _ h => h.elim)
  | mapReadBlocks start blocks =>
    have hw : wp (mapReadBlocks start blocks) _ _ s.store := wp_mapReadBlocks h.ready
    rw [CacheSession.step]
    rcases hrun : mapReadBlocks start blocks s.store with ⟨_ | m, store⟩
    · obtain rfl := wp_error hw hrun
      exact h
    · obtain ⟨rfl, -, hend, -, -, hm⟩ := wp_ok hw hrun
      exact h.map hend hm
  | unmapRead m =>
    have hw := wp_unmapRead (s := s.store) (m := m)
    rw [CacheSession.step]
    rcases hrun : unmapRead m s.store with ⟨_ | _, store⟩
    · obtain rfl := wp_error hw hrun
      exact h
    · obtain ⟨-, rfl⟩ := wp_ok hw hrun
      exact h.unmap

end Coherent

lemma Reached.coherent {s : CacheSession T} (h : Reached s) : Coherent s := by
  induction h with
  | @start transport capability blocks pages store hserves hnew =>
    unfold new at hnew
    split at hnew
    · cases hnew
    · cases hnew
      refine ⟨⟨hserves, rfl, rfl, Nat.one_ne_zero⟩, rfl, ?_, fun p j hp => (by cases hp), fun p => rfl⟩
      rintro j slot ⟨-, hc⟩
      cases hc
  | step _ call hwrite ih => exact ih.step call hwrite

/-- **The cache is coherent.**  In every state of such a run a read of a block returns what was last written to it, or its
first content, and agrees with a read that goes around the cache; and every pinned page shows the block it was mapped for,
with that content. -/
theorem cache_coherence {s : CacheSession T} (h : Reached s) :
    (∀ i < s.store.blocks, (IpcBlockStore.readBlock i s.store).1 = .ok (s.content i) ∧
      (IpcBlockStore.readBlockUncached i s.store).1 = .ok (s.content i)) ∧
    ∀ p < cacheSlots, s.store.pinCount p ≠ 0 → ∃ j, s.shown p = some j ∧ s.store.pages p = s.content j := by
  have hc := h.coherent
  refine ⟨fun i hi => ⟨?_, ?_⟩, fun p hlt hp => ?_⟩
  · have hw := wp_readBlock (i := i) hc.ready
    rcases hrun : readBlock i s.store with ⟨_ | b, store⟩
    · exact absurd hi (wp_error hw hrun).2
    · rcases wp_ok hw hrun with ⟨slot, hcopy, rfl, -⟩ | ⟨-, rfl, -⟩
      · rw [hc.holds i slot hcopy]
      · rw [hc.disk]
  · have hw := wp_readBlockUncached (i := i) hc.ready
    rcases hrun : readBlockUncached i s.store with ⟨_ | b, store⟩
    · exact absurd hi (wp_error hw hrun).2
    · rw [(wp_ok hw hrun).2, hc.disk]
  · rw [hc.pins] at hp
    rcases hj : s.shown p with _ | j
    · rw [hj] at hp
      exact absurd rfl hp
    · obtain ⟨hlt, hcache⟩ := hc.shown p j hj
      exact ⟨j, rfl, hc.holds j p ⟨hlt, hcache⟩⟩

end CacheSession

end Exchange

/-! ## A disk behind a faithful transport -/

/-- A kernel that carries out a request when it is sent and answers the first poll. -/
structure DiskKernel where
  content : ℕ → Block
  pending : Option StorageRequest

instance : KernelStorageIpc DiskKernel where
  send _ request t := (.ok, ⟨effectOf request t.2 t.1.content, some request⟩, t.2)
  receive _ response t :=
    match t.1.pending with
    | none => (.empty, response, t)
    | some request => (.ok, answerTo request, ⟨t.1.content, none⟩,
        if request.operation = .read then t.1.content request.startBlock else t.2)
  waitForResponse t := t

instance : FaithfulIpc DiskKernel where
  disk k := k.content
  Serves _ _ _ := True
  send_ok _ _ _ := rfl
  answers {t} {capability} {n} {request} staging response _ _ := by
    refine ⟨0, ⟨effectOf request staging t.content, none⟩, _, rfl, trivial, rfl, fun hop => ?_⟩
    simp only [KernelStorageIpc.send, effectOf, hop, if_true]
    rfl

/-- The capability of the examples. -/
def someCapability : StorageCapability := ⟨3, 3, 9, by decide, by decide⟩

/-- A store of three blocks on a blank disk. -/
def blankStore : IpcBlockStore DiskKernel where
  transport := ⟨fun _ => Block.zero, none⟩
  capability := someCapability
  generation := 3
  serviceEpoch := 9
  blocks := 3
  nextRequest := 1
  staging := Block.zero
  cache := fun _ => ⟨0, false⟩
  pinCount := fun _ => 0
  nextCacheSlot := 0
  pages := fun _ => Block.zero

lemma new_blankStore : new ⟨fun _ => Block.zero, none⟩ someCapability 3 (fun _ => Block.zero) = .ok blankStore := rfl

lemma blankStore_single (i : ℕ) : blankStore.Single i := by
  rintro slot slot' ⟨-, hc⟩
  cases hc

namespace CacheSession

/-- A block that is not blank. -/
def markedBlock : Block := Block.zero.set 0 1

lemma markedBlock_ne : markedBlock ≠ Block.zero := by
  intro h
  have h0 : markedBlock[0] = Block.zero[0] := by rw [h]
  simp [markedBlock, Block.zero, Bytes.zeros] at h0

theorem cache_coherence_after_write : let s := (start blankStore).step (.writeBlock 1 markedBlock)
    s.content 1 = markedBlock ∧ (IpcBlockStore.readBlock 1 s.store).1 = .ok (s.content 1) := by
  have hs : Reached ((start blankStore).step (.writeBlock 1 markedBlock)) :=
    .step (.start trivial new_blankStore) _ fun i _ _ => blankStore_single i
  exact ⟨rfl, ((cache_coherence hs).1 1 (by decide)).1⟩

/-! The calls after which the cache is stale: blocks 0 and 1 are read into slots 0 and 1, block 1 is mapped, which loads it
into slot 0 as well, and written, which changes slot 0 only; slot 0 is unmapped and used for block 2. -/

def staleCalls (b : Block) : List CacheCall :=
  [.readBlock 0, .readBlock 1, .mapReadBlocks 1 1, .writeBlock 1 b, .unmapRead ⟨0, 1⟩, .mapReadBlocks 2 1]

def afterRead0 : IpcBlockStore DiskKernel :=
  { blankStore with
    nextRequest := 2
    cache := Function.update blankStore.cache 0 ⟨0, true⟩
    nextCacheSlot := 1
    pages := Function.update blankStore.pages 0 Block.zero }

def afterRead1 : IpcBlockStore DiskKernel :=
  { afterRead0 with
    nextRequest := 3
    cache := Function.update afterRead0.cache 1 ⟨1, true⟩
    nextCacheSlot := 2
    pages := Function.update afterRead0.pages 1 Block.zero }

def afterMap1 : IpcBlockStore DiskKernel :=
  { afterRead1 with
    nextRequest := 4
    cache := Function.update afterRead1.cache 0 ⟨1, true⟩
    pages := Function.update afterRead1.pages 0 Block.zero
    pinCount := Function.update afterRead1.pinCount 0 1 }

def afterWrite1 (b : Block) : IpcBlockStore DiskKernel :=
  { afterMap1 with
    transport := ⟨Function.update afterMap1.transport.content 1 b, none⟩
    nextRequest := 5
    staging := b
    pages := Function.update afterMap1.pages 0 b }

def afterUnmap (b : Block) : IpcBlockStore DiskKernel :=
  { afterWrite1 b with pinCount := fun p => if 0 ≤ p ∧ p < 0 + 1 then afterMap1.pinCount p - 1 else afterMap1.pinCount p }

def afterMap2 (b : Block) : IpcBlockStore DiskKernel :=
  { afterUnmap b with
    nextRequest := 6
    staging := Block.zero
    cache := Function.update (afterUnmap b).cache 0 ⟨2, true⟩
    pages := Function.update (afterUnmap b).pages 0 Block.zero
    pinCount := Function.update (afterUnmap b).pinCount 0 1 }

lemma run_staleCalls (b : Block) : ((staleCalls b).foldl step (start blankStore)).store = afterMap2 b ∧
    ((staleCalls b).foldl step (start blankStore)).content = update (fun _ => Block.zero) 1 b := by
  have h1 : readBlock 0 blankStore = (.ok Block.zero, afterRead0) := rfl
  have h2 : readBlock 1 afterRead0 = (.ok Block.zero, afterRead1) := rfl
  have h3 : mapReadBlocks 1 1 afterRead1 = (.ok ⟨0, 1⟩, afterMap1) := rfl
  have h4 : writeBlock 1 b afterMap1 = (.ok (), afterWrite1 b) := rfl
  have h5 : unmapRead ⟨0, 1⟩ (afterWrite1 b) = (.ok (), afterUnmap b) := rfl
  have h6 : mapReadBlocks 2 1 (afterUnmap b) = (.ok ⟨0, 1⟩, afterMap2 b) := rfl
  simp only [staleCalls, foldl_cons, foldl_nil, step, start, h1, h2, h3, h4, h5, h6]
  exact ⟨trivial, rfl⟩

/-- **A stale read.**  After these calls a cached read of block 1 returns the first content of the block, while the block
that was last written is on the disk. -/
theorem stale_read_of_remapped_block : let s := (staleCalls markedBlock).foldl step (start blankStore)
    s.content 1 = markedBlock ∧ (IpcBlockStore.readBlockUncached 1 s.store).1 = .ok markedBlock ∧
      (IpcBlockStore.readBlock 1 s.store).1 = .ok Block.zero ∧ markedBlock ≠ Block.zero := by
  obtain ⟨hstore, hcontent⟩ := run_staleCalls markedBlock
  refine ⟨?_, ?_, ?_, markedBlock_ne⟩
  · rw [hcontent, update_self]
  · rfl
  · rfl

end CacheSession

end IpcBlockStore

end LogOS.StorageService
