import LogOS.Lib.SlotTable
import LogOS.Storage.Catalog.Recover

/-!
# Power loss

A client formats a volume on a device with a volatile write cache and makes calls.  If the power goes inside of a call, the
volume opens to the root before the call or to the root the call was publishing, and reads back what was published with
it.  This needs the client to keep to two rules that the code does not enforce: to write through a transaction only while
the root it was begun on is the current one, and not to retire the current catalog.
-/

namespace LogOS.Storage.Catalog

open Lib SystemCatalogVolume Op Function CrashStore SystemCatalogRoot Block

/-! ## What is read from an image -/

variable {start blocks : ℕ} {s s' : CrashStore} {R : SystemCatalogRoot} {v : SystemCatalogVolume}

/-- The byte string published in an extent, if there is one. -/
def publishedAt (content : ℕ → Block) (start blocks bytes : ℕ) : Option (List UInt8) :=
  if blocks = 0 then none else some (storedBytes content start blocks bytes)

def catalogAt (content : ℕ → Block) (R : SystemCatalogRoot) : Option (List UInt8) :=
  publishedAt content R.catalogStart R.catalogBlocks R.catalogBytes

def metadataAt (content : ℕ → Block) (R : SystemCatalogRoot) : Option (List UInt8) :=
  publishedAt content R.metadataStart R.metadataBlocks R.metadataBytes

/-- What `read_catalog` and `read_metadata` return when `published` is what was published last. -/
def readResult (published : Option (List UInt8)) (capacity : ℕ) : Except CatalogError (List UInt8) :=
  match published with
  | none => .error .unformatted
  | some bytes => if bytes.length ≤ capacity then .ok bytes else .error .invalidRequest

/-- The volume reads back exactly this catalog and this metadata, into buffers of any size. -/
structure Reads (v : SystemCatalogVolume) (s : CrashStore) (catalog metadata : Option (List UInt8)) : Prop where
  catalog : ∀ capacity, (v.readCatalog capacity s).1 = readResult catalog capacity
  metadata : ∀ capacity, (v.readMetadata capacity s).1 = readResult metadata capacity

lemma publishedAt_congr {content content' : ℕ → Block} (bytes : ℕ)
    (h : ∀ i, (⟨start, blocks⟩ : Extent).Covers i → content i = content' i) :
    publishedAt content start blocks bytes = publishedAt content' start blocks bytes := by
  unfold publishedAt
  rw [storedBytes_congr bytes h]

/-- Reading an extent of a healthy device. -/
theorem readExtent_eq (hh : Healthy s) {bytes : ℕ}
    (hg : GoodExtent R start blocks bytes) (hn : start + blocks ≤ s.blocks) (capacity : ℕ) :
    (readExtent start blocks bytes capacity s).1 = readResult (publishedAt (view s) start blocks bytes) capacity := by
  rcases hg with ⟨rfl, -, -⟩ | ⟨hb, -, -, -, hl⟩
  · rfl
  have hb : blocks ≠ 0 := by omega
  have hlen : (storedBytes (view s) start blocks bytes).length = bytes := length_storedBytes hl
  simp only [publishedAt, hb, if_false, readResult, hlen]
  by_cases hc : bytes ≤ capacity
  · obtain ⟨l, s', he, -, rfl⟩ := exists_ok_of_wp
      (wp_readExtent trivial hb hc hl fun _ _ => trivial) fun e s' h => h.2.2 hh hn
    rw [if_pos hc, he]
  · unfold readExtent
    rw [if_neg hb, if_pos (.inl (by omega)), if_neg hc]
    rfl

section Images

variable {s : CrashStore} {R R' : SystemCatalogRoot} {image : ℕ → Block}

lemma Anchored.boot (h : Anchored s R R') (hi : s.Survives image) : Anchored (CrashStore.boot s.blocks image) R R' := by
  have hp : ∀ i c, poss (CrashStore.boot s.blocks image) i c → poss s i c := fun i c hc => by
    rw [CrashStore.poss_boot] at hc
    rw [hc]; exact hi.poss i
  exact ⟨h.valid, h.valid', h.kin, h.next, fun i hi c hc => h.superblock i hi c (hp i c hc),
    fun k hk c hc => h.commitSlot k hk c (hp _ c hc),
    h.anchor.imp (fun ha c hc => ha c (hp _ c hc)) fun ha i hi c hc => ha i hi c (hp i c hc)⟩

/-- **Opening what a power loss left** of an anchored store. -/
theorem Anchored.opens (h : Anchored s R R') (hi : s.Survives image) :
    ∃ v s', openVolume (CrashStore.boot s.blocks image) = (.ok v, s') ∧ (v.root = R ∨ v.root = R') ∧
      Healthy s' ∧ s'.blocks = s.blocks ∧ ∀ i, dataStart ≤ i → view s' i = image i := by
  obtain ⟨v, s', he, hr, -, -, hev⟩ := exists_ok_of_wp
    (wp_openVolume (h.boot hi) trivial fun _ _ => trivial) fun e s' h => h.2.1 (CrashStore.healthy_boot _ _)
  have hev : Evolves (superWrites v.root) (CrashStore.boot s.blocks image) s' :=
    hev.elim (fun h => h.1.of_noWrite _) And.left
  refine ⟨v, s', he, hr, hev.healthy (CrashStore.healthy_boot _ _), hev.count, fun i hi => ?_⟩
  refine hev.view_eq fun c hw => ?_
  have := hw.1
  unfold dataStart commitStart at hi
  omega

/-- What a root refers to is found in the image. -/
theorem Held.survives (h : Held s R) (hi : s.Survives image) {i : ℕ} (hu : Used s R i) : image i = view s i :=
  h.used i hu _ (hi.poss i)

lemma GoodExtent.within {bytes n : ℕ} (h : GoodExtent R start blocks bytes) (hv : R.Valid n) : start + blocks ≤ n := by
  have := hv.systemEnd_le
  rcases h with ⟨rfl, rfl, -⟩ | ⟨-, -, h, -, -⟩ <;> omega

/-- What is read from a device that is decided for a root, whatever its catalog blocks hold. -/
theorem readCatalog_of_settled (h : Settled s R) (hb : R.catalogBlocks ≠ 0)
    (he : openVolume (CrashStore.boot s.blocks (view s)) = (.ok v, s')) :
    (v.readCatalog R.catalogBytes s').1 = .ok (storedBytes (view s) R.catalogStart R.catalogBlocks R.catalogBytes) := by
  obtain ⟨v', s'', he', hr, hh, hn, hview⟩ := h.opens (CrashStore.survives_view s)
  obtain ⟨rfl, rfl⟩ : v' = v ∧ s'' = s' := by simpa using he'.symm.trans he
  have hr : v'.root = R := hr.elim id id
  have hgood := h.valid.catalog
  obtain ⟨-, hlo, -, -, hl⟩ := hgood.resolve_left fun h => hb h.1
  have := h.valid.systemStart
  rw [readCatalog, hr, readExtent_eq hh hgood (by rw [hn]; exact hgood.within h.valid), publishedAt, if_neg hb,
    storedBytes_congr _ fun i hi => hview i (by have := hi.1; dsimp only at *; omega), readResult, length_storedBytes hl,
    if_pos (le_refl _)]

/-- A volume opened on the image reads back what was published with its root. -/
theorem Held.reads (h : Held s R) (hv : R.Valid s.blocks) (hi : s.Survives image)
    (hr : v.root = R) (hh : Healthy s') (hn : s'.blocks = s.blocks) (himage : ∀ i, dataStart ≤ i → view s' i = image i) :
    Reads v s' (catalogAt (view s) R) (metadataAt (view s) R) := by
  have hsame : ∀ i, Used s R i → view s' i = view s i := fun i hu => by
    have := h.bitmapOk.arena i hu; have := hv.systemStart
    rw [himage i (by omega), h.survives hi hu]
  refine ⟨fun capacity => ?_, fun capacity => ?_⟩
  · rw [readCatalog, hr, readExtent_eq hh hv.catalog (by rw [hn]; exact hv.catalog.within hv), catalogAt,
      publishedAt_congr _ fun i hi => hsame i (h.bitmapOk.catalog i hi)]
  · rw [readMetadata, hr, readExtent_eq hh hv.metadata (by rw [hn]; exact hv.metadata.within hv), metadataAt,
      publishedAt_congr _ fun i hi => hsame i (h.bitmapOk.metadata i hi)]

end Images

/-! ## Clients of a volume -/

variable {t : ℕ} {x : SystemCatalogTransaction}

/-- A client of a volume: the volume and its device, the transactions it holds, and what it has published. -/
structure Session where
  volume : SystemCatalogVolume
  store : CrashStore
  transactions : ℕ → Option SystemCatalogTransaction
  catalog : Option (List UInt8)
  metadata : Option (List UInt8)

/-- The calls of a client; transactions are named by numbers. -/
inductive Call where
  | replaceCatalog (snapshot : List UInt8)
  | replaceMetadata (snapshot : List UInt8)
  | begin (t : ℕ)
  | allocateBlocks (t blocks : ℕ)
  | allocateMetadataBlocks (t blocks : ℕ)
  | writeBlock (t index : ℕ) (block : Block)
  | retireExtent (t : ℕ) (extent : CowExtent)
  | commit (t : ℕ) (metadata : CowExtent) (metadataBytes : ℕ)

namespace Session

/-- An operation on the device. -/
def onStore {ε α : Type} (m : Op CrashStore ε α) : Op Session ε α :=
  Op.zoom Session.store (fun a s => { a with store := s }) m

/-- An operation on the volume and the device. -/
def onVolume {ε α : Type} (m : Op (Mounted CrashStore) ε α) : Op Session ε α :=
  Op.zoom (fun a => ⟨a.volume, a.store, false⟩) (fun a m => { a with volume := m.volume, store := m.store }) m

/-- A step of a transaction that only changes the transaction. -/
def onTransaction (t : ℕ) (f : SystemCatalogTransaction → Except CowError SystemCatalogTransaction) :
    Op Session CowError Unit := do
  let a ← Op.get
  let x ← Op.orFail (a.transactions t) .invalidRequest
  let x' ← Op.lift (f x)
  Op.modify fun a => { a with transactions := Function.update a.transactions t (some x') }

variable {f : SystemCatalogTransaction → Except CowError SystemCatalogTransaction}

lemma onTransaction_ok {a : Session} {x' : SystemCatalogTransaction} (hx : a.transactions t = some x) (hf : f x = .ok x') :
    onTransaction t f a = (.ok (), { a with transactions := update a.transactions t (some x') }) := by
  rw [onTransaction, get_bind, bind_of_ok (by rw [hx]; rfl),
    bind_of_ok (by rw [hf]; rfl)]
  rfl

/-- The device with its power going after `k` more I/O operations. -/
def cutAfter (a : Session) (k : ℕ) : Session := { a with store := a.store.cutAfter k }

/-- The device with no failures ahead. -/
def healed (a : Session) : Session := { a with store := { a.store with fails := fun _ => none } }

end Session

open Session in
/-- What a call does; a commit uses its transaction up. -/
def Call.exec : Call → Op Session CowError Unit
  | .replaceCatalog snapshot => do
    let _ ← (onVolume (Mounted.replaceCatalog snapshot)).mapErr catalogToCow
    Op.modify fun a => { a with catalog := some snapshot }
  | .replaceMetadata snapshot => do
    let _ ← (onVolume (Mounted.replaceMetadata snapshot)).mapErr catalogToCow
    Op.modify fun a => { a with metadata := some snapshot }
  | .begin t => do
    let a ← Op.get
    let x ← onStore a.volume.begin
    Op.modify fun a => { a with transactions := Function.update a.transactions t (some x) }
  | .allocateBlocks t blocks => onTransaction t fun x => (x.allocateBlocks blocks).map Prod.snd
  | .allocateMetadataBlocks t blocks => onTransaction t fun x => (x.allocateMetadataBlocks blocks).map Prod.snd
  | .writeBlock t index block => do
    let a ← Op.get
    let x ← Op.orFail (a.transactions t) .invalidRequest
    onStore (x.writeBlock index block)
  | .retireExtent t extent => onTransaction t fun x => x.retireExtent extent
  | .commit t metadata metadataBytes => do
    let a ← Op.get
    let x ← Op.orFail (a.transactions t) .invalidRequest
    Op.modify fun a => { a with transactions := Function.update a.transactions t none }
    let _ ← onVolume (Mounted.update fun v => v.commit x metadata metadataBytes)
    Op.modify fun b => { b with
      metadata := some (storedBytes (view a.store) metadata.start metadata.blocks metadataBytes) }

/-- **The rules for clients**: a transaction is written through only while the root it was begun on is the current one, and
no extent that meets the current catalog is retired. -/
def Call.Disciplined (a : Session) : Call → Prop
  | .writeBlock t _ _ => ∀ x, a.transactions t = some x → x.root = a.volume.root
  | .retireExtent _ extent => extent.Disjoint a.volume.root.catalogExtent
  | _ => True

/-- The sessions that begin with a format and consist of successful calls that are `allowed`. -/
inductive Reached (allowed : Session → Call → Prop) : Session → Prop
  | format {systemBlocks packageStart : ℕ} {s₀ s : CrashStore} {v : SystemCatalogVolume}
      (h : format systemBlocks packageStart s₀ = (.ok v, s)) : Reached allowed ⟨v, s, fun _ => none, none, none⟩
  | call {a a' : Session} {c : Call} (h : Reached allowed a) (hc : allowed a c) (he : c.exec a = (.ok (), a')) :
      Reached allowed a'

/-! ## The invariant of a session -/

variable {R' : SystemCatalogRoot}

/-- The volume is at rest, what was published is on it, and the transactions of the current root are in order. -/
structure SessionOk (a : Session) : Prop where
  atRest : VolumeOk a.store a.volume
  catalog : a.catalog = catalogAt (view a.store) a.volume.root
  metadata : a.metadata = metadataAt (view a.store) a.volume.root
  older : ∀ t x, a.transactions t = some x → x.root.generation ≤ a.volume.root.generation
  current : ∀ t x, a.transactions t = some x → x.root = a.volume.root → TxnOk a.store a.volume x

/-- What a call is going to publish: the root, the catalog and the metadata. -/
def Planned (a : Session) (R' : SystemCatalogRoot) (catalog metadata : Option (List UInt8)) : Call → Prop
  | .replaceCatalog snapshot =>
    (∃ bm, CatalogPlan a.volume.root (bitmapOf a.store a.volume.root) snapshot R' bm) ∧ catalog = some snapshot ∧
      metadata = a.metadata
  | .replaceMetadata snapshot =>
    (∃ bm, MetadataPlan a.volume.root (bitmapOf a.store a.volume.root) snapshot R' bm) ∧ catalog = a.catalog ∧
      metadata = some snapshot
  | .commit t extent bytes =>
    ∃ x, a.transactions t = some x ∧ (∃ bm, CommitPlan a.volume.root x extent bytes R' bm) ∧ catalog = a.catalog ∧
      metadata = some (storedBytes (view a.store) extent.start extent.blocks bytes)
  | _ => False

/-- Where a call may leave the device: what the old root refers to is untouched, and the device is decided for the old root,
or the planned one is on it with everything it refers to. -/
structure CallState (a : Session) (c : Call) (s' : CrashStore) : Prop where
  frame : Evolves (freeWrites a.store a.volume.root) a.store s'
  held : Held s' a.volume.root
  state : Settled s' a.volume.root ∨ ∃ R' catalog metadata, Planned a R' catalog metadata c ∧
    (Anchored s' a.volume.root R' ∨ Settled s' R') ∧ Held s' R' ∧ catalogAt (view s') R' = catalog ∧
    metadataAt (view s') R' = metadata

section SessionOk

variable {a a' : Session} {c : Call} {s' : CrashStore} {W : ℕ → Block → Prop}

/-- What is published stays in place while the blocks in use are spared. -/
theorem catalogAt_frame (h : Held s R) (hf : Evolves (freeWrites s R) s s') : catalogAt (view s') R = catalogAt (view s) R :=
  publishedAt_congr _ fun i hi => view_of_used hf (.ofFree s R) (h.bitmapOk.catalog i hi)

lemma metadataAt_frame (h : Held s R) (hf : Evolves (freeWrites s R) s s') :
    metadataAt (view s') R = metadataAt (view s) R :=
  publishedAt_congr _ fun i hi => view_of_used hf (.ofFree s R) (h.bitmapOk.metadata i hi)

section

variable (h : SessionOk a) (he : Evolves W a.store s') (hW : Spares a.store a.volume.root W)
  (hd : ∀ j c, W j c → dataStart ≤ j)
include h he hW hd

/-- A call that publishes nothing and spares the blocks in use. -/
theorem SessionOk.evolves : SessionOk { a with store := s' } where
  atRest := h.atRest.evolves he hW hd
  catalog := h.catalog.trans (catalogAt_frame h.atRest.held (hW.free he)).symm
  metadata := h.metadata.trans (metadataAt_frame h.atRest.held (hW.free he)).symm
  older := h.older
  current t x ht hr := (h.current t x ht hr).evolves he hW

lemma CallState.quiet : CallState a c s' :=
  have h' := h.atRest.evolves he hW hd
  ⟨hW.free he, h'.held, .inl h'.settled⟩

end

lemma CallState.unchanged (h : SessionOk a) : CallState a c a.store :=
  .quiet h (.refl noWrite _) (.noWrite _ _) fun _ _ h => h.elim

/-- A transaction is added or replaced by one that is in order. -/
theorem SessionOk.setTransaction (h : SessionOk a) (t : ℕ) (x : SystemCatalogTransaction)
    (hold : x.root.generation ≤ a.volume.root.generation) (hx : x.root = a.volume.root → TxnOk a.store a.volume x) :
    SessionOk { a with transactions := update a.transactions t (some x) } where
  atRest := h.atRest
  catalog := h.catalog
  metadata := h.metadata
  older t' x' ht' := by
    rcases eq_some_of_update rfl ht' with ⟨-, rfl⟩ | ⟨-, ht'⟩
    · exact hold
    · exact h.older t' x' ht'
  current t' x' ht' hr := by
    rcases eq_some_of_update rfl ht' with ⟨-, rfl⟩ | ⟨-, ht'⟩
    · exact hx hr
    · exact h.current t' x' ht' hr

/-- The call publishes nothing. -/
abbrev Unplanned (a : Session) (c : Call) : Prop := ∀ R' catalog metadata, ¬ Planned a R' catalog metadata c

/-- What a call that succeeds leaves: a session in order, with what was planned. -/
abbrev Done (a : Session) (c : Call) (a' : Session) : Prop :=
  SessionOk a' ∧ CallState a c a'.store ∧ (Planned a a'.volume.root a'.catalog a'.metadata c ∨ Unplanned a c)

/-- What a call that fails leaves; on a healthy device it had nothing to publish. -/
abbrev Undone (a : Session) (c : Call) (a' : Session) : Prop :=
  CallState a c a'.store ∧ (Healthy a.store → Unplanned a c)

/-- The publishing calls: `P` is the plan and `D` says that its data is in place. -/
structure PublishingCall (a : Session) (c : Call) (P : PlanRel) (D : CrashStore → SystemCatalogRoot → Prop)
    (catalog metadata : Option (List UInt8)) : Prop where
  planned : ∀ R' bm, P R' bm → Planned a R' catalog metadata c
  only : ∀ R' catalog' metadata', Planned a R' catalog' metadata' c → ∃ bm, P R' bm
  follows : ∀ R' bm, P R' bm → R'.generation = a.volume.root.generation + 1
  content : ∀ s' R' bm, Evolves (freeWrites a.store a.volume.root) a.store s' → P R' bm → D s' R' →
    catalogAt (view s') R' = catalog ∧ metadataAt (view s') R' = metadata

variable {P : PlanRel} {D : CrashStore → SystemCatalogRoot → Prop} {catalog metadata : Option (List UInt8)}

section

variable (hc : PublishingCall a c P D catalog metadata)
include hc

lemma PublishingCall.sessionOk {v' : SystemCatalogVolume} (hp : Published P D a.store a.volume v' s')
    {transactions : ℕ → Option SystemCatalogTransaction}
    (ht : ∀ t x, transactions t = some x → x.root.generation ≤ a.volume.root.generation) :
    SessionOk ⟨v', s', transactions, catalog, metadata⟩ := by
  have hcont := hc.content s' _ _ hp.frame hp.plan hp.data
  have hgen := hc.follows _ _ hp.plan
  refine ⟨hp.atRest, hcont.1.symm, hcont.2.symm, fun t x hx => ?_, fun t x hx hr => ?_⟩
  · have := ht t x hx
    show x.root.generation ≤ v'.root.generation
    omega
  · have := ht t x hx
    have hr : x.root = v'.root := hr
    rw [hr] at this
    omega

lemma PublishingCall.callState (h : SessionOk a)
    {v' : SystemCatalogVolume} (hp : Published P D a.store a.volume v' s') : CallState a c s' :=
  have hcont := hc.content s' _ _ hp.frame hp.plan hp.data
  ⟨hp.frame, h.atRest.held.evolves hp.frame (.ofFree _ _), .inr ⟨v'.root, catalog, metadata, hc.planned _ _ hp.plan,
    .inr hp.atRest.settled, hp.atRest.held, hcont⟩⟩

lemma PublishingCall.stranded (hs : Stranded P D a.store a.volume s') : CallState a c s' := by
  refine ⟨hs.frame, hs.held, hs.state.imp_right ?_⟩
  rintro ⟨R', hplan, hstate, hheld, hdata⟩
  exact ⟨R', catalog, metadata, hc.planned _ _ hplan, hstate, hheld, hc.content s' _ _ hs.frame hplan hdata⟩

lemma PublishingCall.unplanned (hP : ∀ R' bm, ¬ P R' bm) : Unplanned a c := fun R' _ _ h =>
  let ⟨bm, hp⟩ := hc.only _ _ _ h
  hP R' bm hp

/-- A call that failed to publish. -/
theorem PublishingCall.failed {ioError : Prop} (hf : Failed P D a.store a.volume ioError s') :
    CallState a c s' ∧ (Healthy a.store → Unplanned a c) :=
  ⟨hc.stranded hf.stranded, fun hh => hf.reason.elim (fun h => (h.2 hh).elim) fun h => hc.unplanned h.2.2⟩

end

/-- What a root with a new catalog reads. -/
theorem CatalogPlan.catalogAt {bitmap bm : Block} {snapshot : List UInt8}
    (hp : CatalogPlan R bitmap snapshot R' bm) (hd : CatalogIs snapshot s' R') : catalogAt (view s') R' = some snapshot := by
  have h1 : R'.catalogBlocks = blocksFor snapshot.length := congrArg catalogBlocks hp.root
  have h2 : R'.catalogBytes = snapshot.length := congrArg catalogBytes hp.root
  obtain ⟨hpos, hle, -⟩ := blocksFor_spec (List.length_pos_iff.mpr hp.nonempty)
  have hst := storedBytes_chunks (by rw [h1]; exact hle) hd
  rw [Catalog.catalogAt, publishedAt, if_neg (by omega), h2, hst]

lemma replaceCatalog_publishing (h : SessionOk a) (snapshot : List UInt8) :
    PublishingCall a (.replaceCatalog snapshot) (CatalogPlan a.volume.root (bitmapOf a.store a.volume.root) snapshot)
      (CatalogIs snapshot) (some snapshot) a.metadata where
  planned R' bm hp := ⟨⟨bm, hp⟩, rfl, rfl⟩
  only R' _ _ hp := hp.1
  follows R' bm hp := congrArg generation hp.root
  content s' R' bm he hp hd := by
    have h3 : R'.metadataStart = a.volume.root.metadataStart := by rw [hp.root]
    have h4 : R'.metadataBlocks = a.volume.root.metadataBlocks := by rw [hp.root]
    have h5 : R'.metadataBytes = a.volume.root.metadataBytes := by rw [hp.root]
    refine ⟨hp.catalogAt hd, ?_⟩
    rw [metadataAt, h3, h4, h5, h.metadata]
    exact metadataAt_frame h.atRest.held he

lemma replaceMetadata_publishing (h : SessionOk a) (snapshot : List UInt8) :
    PublishingCall a (.replaceMetadata snapshot) (MetadataPlan a.volume.root (bitmapOf a.store a.volume.root) snapshot)
      (fun s' R' => HoldsChunks s' R'.metadataStart R'.metadataBlocks snapshot) a.catalog (some snapshot) where
  planned R' bm hp := ⟨⟨bm, hp⟩, rfl, rfl⟩
  only R' _ _ hp := hp.1
  follows R' bm hp := congrArg generation hp.root
  content s' R' bm he hp hd := by
    have h1 : R'.metadataBlocks = blocksFor snapshot.length := congrArg metadataBlocks hp.root
    have h2 : R'.metadataBytes = snapshot.length := congrArg metadataBytes hp.root
    have h3 : R'.catalogStart = a.volume.root.catalogStart := by rw [hp.root]
    have h4 : R'.catalogBlocks = a.volume.root.catalogBlocks := by rw [hp.root]
    have h5 : R'.catalogBytes = a.volume.root.catalogBytes := by rw [hp.root]
    obtain ⟨hpos, hle, -⟩ := blocksFor_spec (List.length_pos_iff.mpr hp.nonempty)
    constructor
    · rw [catalogAt, h3, h4, h5, h.catalog]
      exact catalogAt_frame h.atRest.held he
    · have hst := storedBytes_chunks (by rw [h1]; exact hle) hd
      rw [metadataAt, publishedAt, if_neg (by omega), h2, hst]

lemma commit_publishing (h : SessionOk a) (hx : a.transactions t = some x) (extent : Extent) (bytes : ℕ) :
    PublishingCall a (.commit t extent bytes) (CommitPlan a.volume.root x extent bytes) (KeepsData a.store) a.catalog
      (some (storedBytes (view a.store) extent.start extent.blocks bytes)) where
  planned R' bm hp := ⟨x, hx, ⟨bm, hp⟩, rfl, rfl⟩
  only R' _ _ hp := by
    obtain ⟨x', hx', hp, -, -⟩ := hp
    obtain rfl : x = x' := by simpa [hx] using hx'
    exact hp
  follows R' bm hp := congrArg generation hp.root
  content s' R' bm he hp hd := by
    have hF := (hp.follows h.atRest ((h.current t x hx hp.current).committable h.atRest.held.bitmapOk hp.allocated)).1
    have hv := h.atRest.valid
    obtain ⟨-, hlo, hhi⟩ := (extentInArena_iff (by have := hv.systemEnd_le; have := hv.count_le; omega)).mp hp.arena
    have hroot := hp.root
    constructor
    · rw [show catalogAt (view s') R' = catalogAt (view s') a.volume.root by rw [hroot]; rfl, h.catalog]
      exact catalogAt_frame h.atRest.held he
    have hm : metadataAt (view s') R' = publishedAt (view s') extent.start extent.blocks bytes := by rw [hroot]; rfl
    rw [hm, publishedAt, if_neg hp.blocks]
    congr 1
    refine storedBytes_congr bytes fun i hi => hd i ?_ ?_
    · have h1 := hi.1; have h2 := hv.systemStart
      dsimp only at h1
      omega
    · have h1 := hi.2; have h2 := hF.valid.bitmapStart; have h3 := hv.systemEnd_le
      dsimp only at h1
      unfold bitmapBlock
      omega


/-- A step that only changes a transaction. -/
theorem wp_onTransaction (h : SessionOk a)
    (hroot : ∀ x x', f x = .ok x' → x'.root = x.root)
    (hf : ∀ x x', a.transactions t = some x → x.root = a.volume.root → TxnOk a.store a.volume x → f x = .ok x' →
      TxnOk a.store a.volume x') (hP : Unplanned a c) :
    wp (Session.onTransaction t f) (fun _ => Done a c) (fun _ => Undone a c) a := by
  unfold Session.onTransaction
  rw [wp_bind, wp_get, wp_bind, wp_orFail]
  refine ⟨fun x hx => ?_, fun _ => ⟨.unchanged h, fun _ => hP⟩⟩
  rw [wp_bind, wp_lift]
  refine ⟨fun x' hx' => ?_, fun _ _ => ⟨.unchanged h, fun _ => hP⟩⟩
  have hr := hroot x x' hx'
  refine ⟨h.setTransaction t x' (by rw [hr]; exact h.older t x hx) fun hcur => ?_, .unchanged h, .inr hP⟩
  rw [hr] at hcur
  exact hf x x' hx hcur (h.current t x hx hcur) hx'

lemma allocate_map_ok {x' : SystemCatalogTransaction} {arena : ℕ × ℕ}
    (h : (x.allocateInArena blocks arena).map Prod.snd = .ok x') : ∃ e, Allocation x arena blocks e x' := by
  cases hx : x.allocateInArena blocks arena with
  | error e => rw [hx] at h; cases h
  | ok r =>
    rw [hx] at h
    obtain rfl := Except.ok.inj h
    exact ⟨r.1, allocateInArena_ok hx⟩

/-- **One call**, under any I/O failures. -/
theorem wp_exec (h : SessionOk a) (hc : c.Disciplined a) : wp c.exec (fun _ => Done a c) (fun _ => Undone a c) a := by
  have hv := h.atRest.valid
  cases c with
  | replaceCatalog snapshot =>
    have hpc := replaceCatalog_publishing h snapshot
    rw [Call.exec, wp_bind, wp_mapErr, Session.onVolume, wp_zoom]
    refine wp_mono (wp_replaceCatalog h.atRest snapshot) ?_ ?_
    · rintro g m' ⟨-, -, hp⟩
      exact ⟨hpc.sessionOk hp h.older, hpc.callState h hp, .inl (hpc.planned _ _ hp.plan)⟩
    · rintro e m' (⟨-, hr, hok, he, hreason⟩ | ⟨-, -, -, hh, hstr⟩)
      · refine ⟨⟨he, ?_, .inl ?_⟩, fun hh => hreason.elim (fun h => hpc.unplanned h.2) fun h => (h.2 hh).elim⟩
        · rw [← hr]; exact hok.held
        · rw [← hr]; exact hok.settled
      · exact ⟨hpc.stranded hstr, fun hh' => (hh hh').elim⟩
  | replaceMetadata snapshot =>
    have hpc := replaceMetadata_publishing h snapshot
    rw [Call.exec, wp_bind, wp_mapErr, Session.onVolume, wp_zoom]
    refine wp_update (wp_mono (wp_replaceMetadata h.atRest snapshot) ?_ ?_)
    · intro v' s' hp
      exact ⟨hpc.sessionOk hp h.older, hpc.callState h hp, .inl (hpc.planned _ _ hp.plan)⟩
    · intro e s' hf
      exact hpc.failed hf
  | begin t =>
    rw [Call.exec, wp_bind, wp_get, wp_bind, Session.onStore, wp_zoom]
    refine wp_mono (wp_begin h.atRest) ?_ ?_
    · rintro x s' ⟨he, ht, -, -⟩
      have h' := h.evolves he (.noWrite _ _) fun _ _ h => h.elim
      refine ⟨h'.setTransaction t x ?_ fun _ => ht, .quiet h he (.noWrite _ _) fun _ _ h => h.elim, .inr fun _ _ _ => id⟩
      rw [ht.root]
    · rintro e s' ⟨he, -, -⟩
      exact ⟨.quiet h he (.noWrite _ _) fun _ _ h => h.elim, fun _ _ _ _ => id⟩
  | allocateBlocks t blocks =>
    refine wp_onTransaction h (fun x x' hx => ?_) (fun x x' _ hr hx ha => ?_) (fun _ _ _ => id)
    · obtain ⟨e, ha⟩ := allocate_map_ok hx
      rw [ha.after]
    · obtain ⟨e, ha⟩ := allocate_map_ok ha
      refine hx.allocate ha ?_ ?_ <;> rw [hr]
      · have := hv.userStart; have := hv.system; dsimp only; omega
      · have := hv.packageStart; have := hv.package; dsimp only; omega
  | allocateMetadataBlocks t blocks =>
    refine wp_onTransaction h (fun x x' hx => ?_) (fun x x' _ hr hx ha => ?_) (fun _ _ _ => id)
    · obtain ⟨e, ha⟩ := allocate_map_ok hx
      rw [ha.after]
    · obtain ⟨e, ha⟩ := allocate_map_ok ha
      refine hx.allocate ha ?_ ?_ <;> rw [hr]
      have := hv.systemEnd_le; have := hv.packageEnd; dsimp only; omega
  | writeBlock t index block =>
    rw [Call.exec, wp_bind, wp_get, wp_bind, wp_orFail]
    refine ⟨fun x hx => ?_, fun _ => ⟨.unchanged h, fun _ _ _ _ => id⟩⟩
    have ht := h.current t x hx (hc x hx)
    have hown : ∀ j c, oneWrite index block j c → x.Owns index → writesIn x.Owns j c := by
      rintro j c ⟨rfl, -⟩ ho
      exact ho
    rw [Session.onStore, wp_zoom]
    refine wp_mono (wp_txnWriteBlock h.atRest.inv fun ho => ?_) ?_ ?_
    · obtain ⟨e, he, hi⟩ := ho
      have := (ht.allocated e he).2.2; have := hi.2; have := hv.packageEnd
      omega
    · rintro _ s' ⟨ho, he, -⟩
      have he := he.mono fun j c hw => hown j c hw ho
      exact ⟨h.evolves he (ht.spares hv) fun _ _ => ht.dataStart_le hv,
        .quiet h he (ht.spares hv) fun _ _ => ht.dataStart_le hv, .inr fun _ _ _ => id⟩
    · rintro e s' ⟨he, -⟩
      exact ⟨.quiet h he (.noWrite _ _) fun _ _ h => h.elim, fun _ _ _ _ => id⟩
  | retireExtent t extent =>
    refine wp_onTransaction h (fun x x' hx => ?_) (fun x x' _ hr hx ha => hx.retire hv ha hc) (fun _ _ _ => id)
    unfold SystemCatalogTransaction.retireExtent at hx
    split_ifs at hx
    rw [← Except.ok.inj hx]
  | commit t extent bytes =>
    rw [Call.exec, wp_bind, wp_get, wp_bind, wp_orFail]
    refine ⟨fun x hx => ?_, fun hx => ⟨.unchanged h, fun _ R' _ _ hp => ?_⟩⟩
    swap
    · obtain ⟨x, hx', -⟩ := hp
      rw [hx] at hx'
      cases hx'
    have hpc := commit_publishing h hx extent bytes
    rw [wp_bind, wp_modify, wp_bind, Session.onVolume, wp_zoom]
    refine wp_update (wp_mono (wp_commit h.atRest extent bytes
      fun hr hm => (h.current t x hx hr).committable h.atRest.held.bitmapOk hm) ?_ ?_)
    · intro v' s' hp
      refine ⟨hpc.sessionOk hp fun t' x' ht' => ?_, hpc.callState h hp, .inl (hpc.planned _ _ hp.plan)⟩
      by_cases htt : t' = t
      · subst htt
        simp at ht'
      · exact h.older t' x' (by simpa [update_of_ne htt] using ht')
    · intro e s' hf
      exact hpc.failed hf


end SessionOk

/-! ## Crash atomicity -/

section CrashAtomicity

/-- The volume opens on the image, to the root before the call with everything that root refers to, or to the root that the
call publishes when it is not interrupted. -/
def Recovers (a : Session) (c : Call) (image : ℕ → Block) : Prop :=
  ∃ v s, openVolume (CrashStore.boot a.store.blocks image) = (.ok v, s) ∧
    ((v.root = a.volume.root ∧ Reads v s a.catalog a.metadata ∧
        ∀ i, Used a.store a.volume.root i → image i = view a.store i) ∨
      ∃ a', c.exec a.healed = (.ok (), a') ∧ v.root = a'.volume.root ∧ Reads v s a'.catalog a'.metadata)

variable {a : Session} {c : Call}

lemma Reached.sessionOk (h : Reached Call.Disciplined a) : SessionOk a := by
  induction h with
  | format h =>
    obtain ⟨hr, hok, -⟩ := wp_ok (wp_format _ _ trivial fun _ => trivial) h
    refine ⟨hok, ?_, ?_, fun t x ht => (by cases ht), nofun⟩
    · show none = catalogAt _ _
      rw [hr]; rfl
    · show none = metadataAt _ _
      rw [hr]; rfl
  | call h hc he ih => exact (wp_ok (wp_exec ih hc) he).1

/-- The failures that lie ahead of a device are no part of its state. -/
theorem Anchored.refail (h : Anchored s R R') (f : ℕ → Option BlockError) : Anchored { s with fails := f } R R' :=
  ⟨h.valid, h.valid', h.kin, h.next, h.superblock, h.commitSlot, h.anchor⟩

lemma VolumeOk.refail (h : VolumeOk s v) (f : ℕ → Option BlockError) : VolumeOk { s with fails := f } v where
  inv := trivial
  settled := h.settled.refail f
  held := ⟨h.held.bitmapOk, h.held.bitmap, h.held.used⟩
  active := h.active
  faithful := fun _ _ => trivial

lemma SessionOk.refail (h : SessionOk a) (f : ℕ → Option BlockError) :
    SessionOk { a with store := { a.store with fails := f } } where
  atRest := h.atRest.refail f
  catalog := h.catalog
  metadata := h.metadata
  older := h.older
  current t x ht hr :=
    have ht := h.current t x ht hr
    ⟨ht.root, ht.bitmap, ht.bitmapSlot, ht.allocated, ht.free, ht.disjoint, ht.released, ht.catalog⟩

lemma Call.Disciplined.refail (h : c.Disciplined a) (f : ℕ → Option BlockError) :
    c.Disciplined { a with store := { a.store with fails := f } } := by
  cases c <;> exact h

lemma Planned.unique {R1 R2 : SystemCatalogRoot} {cat1 cat2 met1 met2 : Option (List UInt8)}
    (h1 : Planned a R1 cat1 met1 c) (h2 : Planned a R2 cat2 met2 c) : R1 = R2 ∧ cat1 = cat2 ∧ met1 = met2 := by
  cases c with
  | replaceCatalog snapshot =>
    obtain ⟨⟨b1, h1⟩, rfl, rfl⟩ := h1
    obtain ⟨⟨b2, h2⟩, rfl, rfl⟩ := h2
    exact ⟨(h1.unique h2).1, rfl, rfl⟩
  | replaceMetadata snapshot =>
    obtain ⟨⟨b1, h1⟩, rfl, rfl⟩ := h1
    obtain ⟨⟨b2, h2⟩, rfl, rfl⟩ := h2
    exact ⟨(h1.unique h2).1, rfl, rfl⟩
  | commit t extent bytes =>
    obtain ⟨x1, hx1, ⟨b1, h1⟩, rfl, rfl⟩ := h1
    obtain ⟨x2, hx2, ⟨b2, h2⟩, rfl, rfl⟩ := h2
    obtain rfl : x1 = x2 := by simpa [hx1] using hx2
    exact ⟨h1.root.trans h2.root.symm, rfl, rfl⟩
  | _ => exact h1.elim

/-- What is planned is what the uninterrupted call publishes. -/
theorem Planned.published (h : SessionOk a) (hc : c.Disciplined a)
    {catalog metadata : Option (List UInt8)} (hp : Planned a R' catalog metadata c) :
    ∃ a', c.exec a.healed = (.ok (), a') ∧ a'.volume.root = R' ∧ a'.catalog = catalog ∧ a'.metadata = metadata := by
  have hp' : Planned a.healed R' catalog metadata c := by cases c <;> exact hp
  obtain ⟨_, a', he, -, -, hplan⟩ := exists_ok_of_wp
    (wp_exec (h.refail fun _ => none) (hc.refail fun _ => none)) fun e s' h => h.2 (fun _ _ => rfl) _ _ _ hp'
  obtain ⟨h1, h2, h3⟩ := (hplan.resolve_right fun h => h _ _ _ hp').unique hp'
  exact ⟨a', he, h1, h2, h3⟩

lemma CallState.recovers (h : SessionOk a) (hc : c.Disciplined a) (hs : CallState a c s')
    {image : ℕ → Block} (hi : s'.Survives image) : Recovers a c image := by
  have hn : s'.blocks = a.store.blocks := hs.frame.count
  -- the image opened to the old root
  have hold : ∀ {v s}, v.root = a.volume.root → Healthy s → s.blocks = s'.blocks →
      (∀ i, dataStart ≤ i → view s i = image i) → v.root = a.volume.root ∧ Reads v s a.catalog a.metadata ∧
        ∀ i, Used a.store a.volume.root i → image i = view a.store i := by
    intro v s hr hh hb hv
    refine ⟨hr, ?_, fun i hu => ?_⟩
    · have hreads := hs.held.reads (by rw [hn]; exact h.atRest.valid) hi hr hh hb hv
      rwa [catalogAt_frame h.atRest.held hs.frame, metadataAt_frame h.atRest.held hs.frame, ← h.catalog,
        ← h.metadata] at hreads
    · rw [hs.held.survives hi ((used_evolves hs.frame (.ofFree _ _) i).mpr hu), view_of_used hs.frame (.ofFree _ _) hu]
  unfold Recovers
  rw [← hn]
  rcases hs.state with hset | ⟨R', catalog, metadata, hplan, hstate, hheld, hcat, hmet⟩
  · obtain ⟨v, s, he, hr, hh, hb, hv⟩ := hset.opens hi
    exact ⟨v, s, he, .inl (hold (hr.elim id id) hh hb hv)⟩
  -- the image opened to the planned root
  have hnew : ∀ {v s}, v.root = R' → R'.Valid s'.blocks → Healthy s → s.blocks = s'.blocks →
      (∀ i, dataStart ≤ i → view s i = image i) →
      ∃ a', c.exec a.healed = (.ok (), a') ∧ v.root = a'.volume.root ∧ Reads v s a'.catalog a'.metadata := by
    intro v s hr hv' hh hb hv
    obtain ⟨a', he, h1, h2, h3⟩ := hplan.published h hc
    refine ⟨a', he, hr.trans h1.symm, ?_⟩
    rw [h2, h3, ← hcat, ← hmet]
    exact hheld.reads hv' hi hr hh hb hv
  rcases hstate with hanch | hset
  · obtain ⟨v, s, he, hr | hr, hh, hb, hv⟩ := hanch.opens hi
    · exact ⟨v, s, he, .inl (hold hr hh hb hv)⟩
    · exact ⟨v, s, he, .inr (hnew hr hanch.valid' hh hb hv)⟩
  · obtain ⟨v, s, he, hr, hh, hb, hv⟩ := hset.opens hi
    exact ⟨v, s, he, .inr (hnew (hr.elim id id) hset.valid hh hb hv)⟩

/-- **Crash atomicity.**  In every session of a disciplined client, wherever the power goes in the next call and whatever
part of the unflushed writes survives, the volume opens to the root before the call or to the root the call was
publishing, and reads back what was published with it. -/
theorem crash_atomicity (ha : Reached Call.Disciplined a) (hc : c.Disciplined a) (k : ℕ) {image : ℕ → Block}
    (hi : (c.exec (a.cutAfter k)).2.store.Survives image) : Recovers a c image := by
  have h : SessionOk (a.cutAfter k) := ha.sessionOk.refail _
  have hc' : c.Disciplined (a.cutAfter k) := hc.refail _
  have hs : CallState (a.cutAfter k) c (c.exec (a.cutAfter k)).2.store :=
    state_of_wp
      (wp_mono (wp_exec h hc') (fun _ _ h => h.2.1) fun _ _ h => h.1)
  exact hs.recovers h hc' hi

/-- A blank device of twelve blocks. -/
def blankDevice : CrashStore := CrashStore.boot 12 fun _ => Block.zero

/-- Formatting it with four system blocks, one user block and one package block. -/
theorem format_blankDevice : ∃ v s, format 4 9 blankDevice = (.ok v, s) ∧ v.root = firstRoot 12 4 9 ∧ VolumeOk s v ∧
    bitmapOf s v.root = zero ∧ Healthy s := by
  have hpools : PoolsOk 12 4 9 := by constructor <;> simp [dataStart, commitStart, commitSlots]
  have hblank : ∀ i, view blankDevice i = zero := fun i => by rw [blankDevice, view_boot]
  have hcount : blockCount blankDevice = 12 := rfl
  have h := exists_format (s := blankDevice) (inv _) (fun _ => trivial) (healthy_boot _ _) hblank
    (by exact hpools)
  rwa [hcount] at h

/-- The first catalog of a volume, interrupted after three I/O operations. -/
theorem crash_atomicity_first_catalog : ∃ a image, Reached Call.Disciplined a ∧
    ((Call.replaceCatalog [1]).exec (a.cutAfter 3)).2.store.Survives image ∧ Recovers a (.replaceCatalog [1]) image := by
  obtain ⟨v, s, he, -⟩ := format_blankDevice
  have ha : Reached Call.Disciplined ⟨v, s, fun _ => none, none, none⟩ := .format he
  exact ⟨_, _, ha, survives_view _, crash_atomicity (c := .replaceCatalog [1]) ha trivial 3 (survives_view _)⟩

lemma Reached.mono {allowed allowed' : Session → Call → Prop} (h : Reached allowed a)
    (hsub : ∀ a c, allowed a c → allowed' a c) : Reached allowed' a := by
  induction h with
  | format h => exact .format h
  | call _ hc he ih => exact .call ih (hsub _ _ hc) he

/-- A transaction that has just been begun on a volume with nothing in use is given the first block of the system pool. -/
theorem allocate_first (h : TxnOk s v x)
    (hr : v.root = firstRoot 12 4 9) (hbm : bitmapOf s v.root = zero) (hx : x.allocated = []) (hx' : x.released = []) :
    x.allocateMetadataBlocks 1 = .ok (⟨4, 1⟩, { x with allocated := [⟨4, 1⟩] }) := by
  have hocc : x.occupied 4 = false := by
    simp [SystemCatalogTransaction.occupied, h.bitmap, hbm, bitmapIsSet_zero, hx, hx']
  have harena : (x.root.systemStart, x.root.systemEnd) = (4, 8) := by
    rw [h.root, hr]
    rfl
  have hfit : firstFit x.occupied 1 (8 - 4) 4 none 0 = some 4 := firstFit_one hocc 3
  rw [SystemCatalogTransaction.allocateMetadataBlocks, harena, SystemCatalogTransaction.allocateInArena, hfit]
  simp [SystemCatalogTransaction.recordAllocated, hx]
  rfl

/-- The first catalog, of one block, takes the same block. -/
theorem first_catalogPlan (hr : R = firstRoot 12 4 9) (snapshot : List UInt8) (hne : snapshot ≠ [])
    (hone : blocksFor snapshot.length = 1) :
    ∃ R' bm, CatalogPlan R zero snapshot R' bm ∧ R'.catalogExtent = ⟨4, 1⟩ ∧ R'.catalogBytes = snapshot.length := by
  have hsize : snapshot.length ≤ systemCatalogMaxBytes := by
    have h1 := (blocksFor_spec (List.length_pos_iff.mpr hne)).2.1
    rw [hone] at h1
    simp only [systemCatalogMaxBytes, systemCatalogMaxBlocks, blockBytes]
    omega
  have harena : (R.systemStart, R.systemEnd) = (4, 8) := by
    rw [hr]
    rfl
  have hfit : allocateInArena zero (4, 8) 1 = .ok 4 := allocateInArena_one (by omega) (bitmapIsSet_zero 4)
  let R' : SystemCatalogRoot := { R with
    generation := R.generation + 1, catalogStart := 4, catalogBlocks := 1, catalogBytes := snapshot.length
    bitmapSlot := 1 - R.bitmapSlot }
  have hgen : R.generation + 1 < 2 ^ 64 := by simp [hr, firstRoot]
  have hplan : CatalogPlan R zero snapshot R' (replaceBits zero R'.catalogExtent R.catalogExtent) :=
    ⟨hne, hsize, by rw [hone, harena, hfit], hgen, by rw [hone], rfl⟩
  exact ⟨R', _, hplan, rfl, rfl⟩

lemma replaceCatalog_transactions {a' : Session} {snapshot : List UInt8}
    (h : (Call.replaceCatalog snapshot).exec a = (.ok (), a')) : a'.transactions = a.transactions := by
  refine wp_ok (Q := fun _ b => b.transactions = a.transactions) (E := fun _ _ => True) ?_ h
  rw [Call.exec, wp_bind, wp_mapErr, Session.onVolume, wp_zoom]
  exact wp_of_forall (fun _ _ => rfl) fun _ _ => trivial

lemma Call.begin_ok (h : a.volume.begin a.store = (.ok x, s')) : (Call.begin t).exec a =
      (.ok (), { a with store := s', transactions := update a.transactions t (some x) }) := by
  rw [Call.exec, get_bind, bind_of_ok (by rw [Session.onStore, Op.zoom, h])]
  rfl

/-- A session with a transaction of an older root that allocated the block where the current catalog is. -/
theorem exists_stale_session : ∃ (a : Session) (x : SystemCatalogTransaction), Reached Call.Disciplined a ∧
    Healthy a.store ∧ a.transactions 0 = some x ∧ x.Owns 4 ∧ a.volume.root.catalogExtent = ⟨4, 1⟩ ∧
    a.volume.root.catalogBytes = 1 ∧ a.catalog = some [1] := by
  obtain ⟨v, s, he, hr, hok, hbm, hh⟩ := format_blankDevice
  have ha : Reached Call.Disciplined ⟨v, s, fun _ => none, none, none⟩ := .format he
  -- the transaction is begun
  obtain ⟨x, s1, hb, he1, hx, hal, hrel⟩ := exists_ok_of_wp (wp_begin hok) fun e s' h => h.2.1 hh
  have ha1 : Reached Call.Disciplined ⟨v, s1, update (fun _ => none) 0 (some x), none, none⟩ := by
    refine ha.call (c := .begin 0) trivial ?_
    rw [Call.begin_ok hb]
  -- it allocates
  have hal' := allocate_first hx hr (by rw [bitmapOf_evolves he1 (.noWrite _ _)]; exact hbm) hal hrel
  have ha2 : Reached Call.Disciplined
      ⟨v, s1, update (fun _ => none) 0 (some { x with allocated := [⟨4, 1⟩] }), none, none⟩ := by
    refine ha1.call (c := .allocateMetadataBlocks 0 1) trivial ?_
    rw [Call.exec, Session.onTransaction_ok (x := x) (by simp) (by rw [hal']; rfl)]
    simp
  -- the catalog is replaced
  obtain ⟨R', bm, hplan, hext, hbytes⟩ := first_catalogPlan hr [1] (by simp) (by simp [blocksFor, blockBytes])
  have hplanned : Planned ⟨v, s1, update (fun _ => none) 0 (some { x with allocated := [⟨4, 1⟩] }), none, none⟩
      R' (some [1]) none (.replaceCatalog [1]) :=
    ⟨⟨bm, by rw [bitmapOf_evolves he1 (.noWrite _ _), hbm]; exact hplan⟩, rfl, rfl⟩
  obtain ⟨_, a, he3, hok3, hst, hpub⟩ := exists_ok_of_wp (wp_exec (c := .replaceCatalog [1]) ha2.sessionOk trivial)
    fun e s' h => h.2 (he1.healthy hh) _ _ _ hplanned
  obtain ⟨hR, hcat, -⟩ := (hpub.resolve_right fun h => h _ _ _ hplanned).unique hplanned
  refine ⟨a, { x with allocated := [⟨4, 1⟩] }, ha2.call (c := .replaceCatalog [1]) trivial he3, hst.frame.healthy (he1.healthy hh), ?_, ?_, ?_, ?_, hcat⟩
  · have ht : a.transactions = update (fun _ => none) 0 (some { x with allocated := [⟨4, 1⟩] }) := replaceCatalog_transactions he3
    rw [ht]; simp
  · exact ⟨_, List.mem_singleton_self _, le_refl _, Nat.lt_succ_self _⟩
  · rw [hR, hext]
  · rw [hR, hbytes]
    rfl

lemma Call.writeBlock_ok {i : ℕ} {b : Block} (hx : a.transactions t = some x)
    (ho : x.Owns i) (hi : i < a.store.blocks) (hf : a.store.fails a.store.clock = none) :
    (Call.writeBlock t i b).exec a = (.ok (), { a with store := a.store.queue i b }) := by
  have hw : x.writeBlock i b a.store = (.ok (), a.store.queue i b) := by
    rw [SystemCatalogTransaction.writeBlock, if_neg (by rw [any_covers_iff]; exact fun h => h ho), Op.mapErr,
      writeBlock_eq hf hi]
  rw [Call.exec, get_bind, bind_of_ok (by rw [hx]; rfl), Session.onStore, Op.zoom, hw]

/-- **Not every client is safe.**  A transaction is begun and allocates a block; the catalog is replaced and takes the same
block, since no bitmap knows of the transaction; a write through the transaction, which the code accepts, then changes the
published catalog. -/
theorem crash_atomicity_stale_transaction : ∃ a c k image, Reached (fun _ _ => True) a ∧
    (Call.exec c (a.cutAfter k)).2.store.Survives image ∧ ¬ Recovers a c image := by
  obtain ⟨a, x, ha, hh, hx, ho, hext, hbytes, hcat⟩ := exists_stale_session
  have hok := ha.sessionOk
  have hv := hok.atRest.valid
  have hstart : a.volume.root.catalogStart = 4 := congrArg Extent.start hext
  have hblocks : a.volume.root.catalogBlocks = 1 := congrArg Extent.blocks hext
  have hin : 4 < a.store.blocks := by
    have := hv.catalog.within hv
    rw [hstart, hblocks] at this
    exact this
  -- the write goes through, with the power on or failing right after it
  have hcut := Call.writeBlock_ok (a := a.cutAfter 1) (b := zero) hx ho hin
    (by simp [Session.cutAfter, cutAfter, hh _ (le_refl _)])
  have hfull := Call.writeBlock_ok (a := a.healed) (b := zero) hx ho hin rfl
  refine ⟨a, .writeBlock 0 4 zero, 1, _, ha.mono fun _ _ _ => trivial, survives_view _, ?_⟩
  rw [hcut]
  rintro ⟨v, s, he, h⟩
  -- the volume opens to the current root
  have hharm : Harmless a.volume.root a.volume.root (oneWrite 4 zero) := by
    rintro j c ⟨rfl, -⟩
    exact .inr (le_refl _)
  have hcutOk : SessionOk (a.cutAfter 1) := hok.refail _
  have hset : Settled ((a.cutAfter 1).store.queue 4 zero) a.volume.root :=
    Anchored.evolves hcutOk.atRest.settled hharm (evolves_write (a.cutAfter 1).store 4 zero)
  have hgot := readCatalog_of_settled hset (by rw [hblocks]; exact Nat.one_ne_zero) he
  rw [hstart, hbytes] at hgot
  -- but the catalog reads as a zero byte
  have hread : (v.readCatalog 1 s).1 = readResult (some [1]) 1 := by
    rcases h with ⟨-, hreads, -⟩ | ⟨a', ha', -, hreads⟩
    · rw [hreads.catalog, hcat]
    · rw [hreads.catalog]
      rw [hfull] at ha'
      rw [← (Prod.mk.inj ha').2]
      exact congrArg (readResult · 1) hcat
  have hfirst := congrArg (fun l => l.getD 0 0) (Except.ok.inj (hread.symm.trans hgot))
  simp only [view_queue] at hfirst
  rw [getD_storedBytes (by omega) (by omega), update_self, zero] at hfirst
  simp at hfirst

end CrashAtomicity

end LogOS.Storage.Catalog
