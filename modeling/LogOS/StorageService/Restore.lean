import LogOS.StorageService.Decode
import LogOS.StorageService.PackageCode
import LogOS.StorageService.Tree
import LogOS.Storage.Catalog.Crash

/-!
# Restoring from any metadata

`restore_snapshot_from_store` on metadata blocks with any content.  The first part follows the decoder over bytes that
nobody encoded, as far as the parent of slot 0; the second collects what the checks establish of the tables that come out.
The root is left out by the check of the objects, so its parent is what the stream says: it may name a live directory, and
then the restored namespace has a root that is somebody's child.
-/

namespace LogOS.StorageService

open Lib Abi Storage Storage.Catalog Package Op SnapshotDecoder PackageCatalog NamespaceVolume SnapshotReader List Option Nat

/-! ## Volumes that can be read -/

/-- What is needed of a volume: its metadata blocks have a content, and reading one of them returns it. -/
class ReadableVolume (σ V : Type) (T : outParam Type) [BlockStore σ] [NamespaceVolume V T] where
  Readable : V → σ → Prop
  metadata : V → σ → ℕ → Block
  read_law : ∀ {v : V} {s : σ} (k : ℕ), Readable v s → Op.wp (NamespaceVolume.readMetadataBlock v k)
    (fun b s' => b = metadata v s k ∧ Readable v s' ∧ metadata v s' = metadata v s) (fun _ _ => True) s

export ReadableVolume (Readable metadata)

instance {σ : Type} [BlockStore σ] [LawfulStore σ] : ReadableVolume σ SystemCatalogVolume SystemCatalogTransaction where
  Readable v s := StoreModel.Inv s ∧ ∀ k < v.root.metadataBlocks, faithful s (v.root.metadataStart + k)
  metadata v s k := view s (v.root.metadataStart + k)
  read_law {v} {s} k h := by
    show Op.wp (readCatalogMetadataBlock v k) _ _ s
    unfold readCatalogMetadataBlock
    split
    · trivial
    next hk =>
    rw [Op.wp_mapErr]
    refine wp_readBlock h.1 (fun b s' he hb => ⟨hb (h.2 k (Nat.not_le.mp hk)), ⟨he.inv h.1, ?_⟩, ?_⟩) fun _ _ _ _ => trivial
    · intro j hj
      exact he.faithful _ (h.2 j hj)
    · rw [he.view_eq_of_noWrite]

variable {σ V T : Type} [BlockStore σ] [NamespaceVolume V T] {v : V}

section Arbitrary

variable [ReadableVolume σ V T] {s : σ}

/-- Byte `pos` of the metadata. -/
def metadataByte (v : V) (s : σ) (pos : ℕ) : UInt8 := (metadata v s (pos / 4096)).byteAt (pos % 4096)

/-! ## The reader -/

/-- The reader has read the first `pos` bytes of the metadata. -/
structure ReadTo (v : V) (s : σ) (pos : ℕ) (r : SnapshotReader σ) : Prop where
  readable : Readable v r.store
  same : metadata v r.store = metadata v s
  position : pos + 4096 = r.blockNumber * 4096 + r.offset
  offset : r.offset ≤ 4096
  block : 0 < r.blockNumber → r.block = metadata v s (r.blockNumber - 1)

lemma wp_readByte_any {pos : ℕ} {r : SnapshotReader σ} (hr : ReadTo v s pos r) :
    wp (readByte v) (fun byte r' => byte = metadataByte v s pos ∧ ReadTo v s (pos + 1) r') (fun _ _ => True) r := by
  refine wp_mono (wp_readByte_of (F := fun s' => Readable v s' ∧ metadata v s' = metadata v s) (E := fun _ _ => True)
    ⟨hr.readable, hr.same⟩ hr.position hr.offset hr.block (fun _ _ => trivial) fun _ => ?_) ?_ (fun _ _ _ => trivial)
  · rw [wp_mapErr]
    refine wp_mono (ReadableVolume.read_law r.blockNumber hr.readable) ?_ (fun _ _ _ => trivial)
    rintro block s' ⟨rfl, hread, hsame⟩
    exact ⟨congrFun hr.same r.blockNumber, hread, hsame.trans hr.same⟩
  · rintro byte r' ⟨hbyte, ⟨hread, hsame⟩, hp, ho, hb⟩
    exact ⟨hbyte, hread, hsame, hp, ho, hb⟩

/-! ## The decoder -/

/-- The decoder has yielded `out`: whatever it can go on to yield, the stream behind the two lengths stands for both. -/
structure Yielded (v : V) (s : σ) (out : List UInt8) (d : SnapshotDecoder σ) : Prop where
  reader : ReadTo v s d.consumed d.reader
  stream : ∀ more, Expands (metadataByte v s) d.runLiteral d.runRemaining d.consumed more →
    Expands (metadataByte v s) false 0 8 (out ++ more)

variable {d : SnapshotDecoder σ}

lemma wp_decoderByte_any {pos : ℕ} (hr : ReadTo v s pos d.reader) :
    wp (onReader (readByte v))
      (fun byte d' => byte = metadataByte v s pos ∧ d' = { d with reader := d'.reader } ∧ ReadTo v s (pos + 1) d'.reader)
      (fun _ _ => True) d := by
  unfold onReader
  rw [wp_zoom]
  exact wp_mono (wp_readByte_any hr) (fun _ _ h => ⟨h.1, rfl, h.2⟩) (fun _ _ _ => trivial)

lemma wp_nextRun_any {out : List UInt8} (hd : Yielded v s out d) (hrun : d.runRemaining = 0) :
    wp (nextRun v) (fun more d' => more = true → Yielded v s out d' ∧ d'.runRemaining ≠ 0) (fun _ _ => True) d := by
  unfold nextRun
  rw [wp_bind, wp_get]
  split
  · exact nofun
  refine wp_guard_seq (fun _ => trivial) fun _ => ?_
  refine wp_seq (wp_decoderByte_any hd.reader) ?_
  rintro _ d1 ⟨rfl, hd1, hr1⟩
  refine wp_seq (wp_decoderByte_any hr1) ?_
  rintro _ d2 ⟨rfl, hd2, hr2⟩
  refine wp_seq (wp_decoderByte_any hr2) ?_
  rintro _ d3 ⟨rfl, hd3, hr3⟩
  refine wp_guard_seq (fun _ => trivial) fun hpos => ?_
  rw [hd2, hd1] at hd3
  rw [hd3]
  intro _
  refine ⟨⟨hr3, ?_⟩, by simpa using hpos⟩
  intro more hmore
  apply hd.stream
  rw [hrun]
  exact .run hmore

/-- A byte of the stream. -/
theorem wp_next_any {out : List UInt8} (hd : Yielded v s out d) :
    wp (next v) (fun b d' => ∀ byte, b = some byte → Yielded v s (out ++ [byte]) d') (fun _ _ => True) d := by
  have hlast : ∀ d1 : SnapshotDecoder σ, Yielded v s out d1 → d1.runRemaining ≠ 0 →
      wp (do
          let d ← Op.get
          Op.guard (d.outputOffset != storageSnapshotBytes) NamespaceError.invalidRecord
          let byte ← if d.runLiteral then onReader (readByte v) else Op.ret 0
          Op.modify fun d => { d with
            consumed := if d.runLiteral then d.consumed + 1 else d.consumed
            runRemaining := d.runRemaining - 1, outputOffset := d.outputOffset + 1 }
          Op.ret (some byte))
        (fun b d' => ∀ byte, b = some byte → Yielded v s (out ++ [byte]) d') (fun _ _ => True) d1 := by
    intro d1 hd1 hrun
    obtain ⟨n, hn⟩ := exists_eq_succ_of_ne_zero hrun
    refine wp_guard_seq (fun _ => trivial) fun _ => ?_
    by_cases hlit : d1.runLiteral = true
    · rw [if_pos hlit]
      refine wp_seq (wp_decoderByte_any hd1.reader) ?_
      rintro _ d2 ⟨rfl, hd2, hr2⟩
      rw [wp_bind, wp_modify]
      rintro _ ⟨⟩
      rw [hd2]
      refine ⟨?_, fun more hmore => ?_⟩
      · rw [if_pos hlit]
        exact hr2
      · rw [hn, hlit] at hmore
        have := hd1.stream (metadataByte v s d1.consumed :: more) (by rw [hlit, hn]; exact .literal hmore)
        rwa [append_assoc]
    · rw [if_neg hlit, wp_bind, wp_ret, wp_bind, wp_modify]
      rintro _ ⟨⟩
      rw [Bool.not_eq_true] at hlit
      refine ⟨?_, fun more hmore => ?_⟩
      · rw [if_neg (by rw [hlit]; decide)]
        exact hd1.reader
      · rw [hn, hlit] at hmore
        have := hd1.stream (0 :: more) (by rw [hlit, hn]; exact .zero hmore)
        rwa [append_assoc]
  unfold SnapshotDecoder.next
  rw [wp_bind, wp_get]
  by_cases hrun : d.runRemaining = 0
  · rw [if_pos hrun]
    refine wp_seq (wp_nextRun_any hd hrun) ?_
    intro more d1 hd1
    cases more with
    | false =>
      rintro _ ⟨⟩
    | true => exact hlast d1 (hd1 rfl).1 (hd1 rfl).2
  · rw [if_neg hrun]
    exact hlast d hd hrun

lemma wp_readExact_any : ∀ (n : ℕ) {out : List UInt8} {d : SnapshotDecoder σ}, Yielded v s out d →
    wp (SnapshotDecoder.readExact v n) (fun bytes d' => bytes.length = n ∧ Yielded v s (out ++ bytes) d')
      (fun _ _ => True) d
  | 0, out, d, hd => ⟨rfl, by rwa [append_nil]⟩
  | n + 1, out, d, hd => by
    rw [SnapshotDecoder.readExact, wp_bind]
    refine wp_seq (wp_next_any hd) ?_
    intro b d1 hd1
    rw [wp_orFail]
    refine ⟨fun byte hbyte => ?_, fun _ => trivial⟩
    refine wp_seq (wp_readExact_any n (hd1 byte hbyte)) ?_
    rintro bytes d2 ⟨hlen, hd2⟩
    refine ⟨by simp [hlen], ?_⟩
    rwa [append_assoc] at hd2

lemma wp_readBytes_any : ∀ (n : ℕ) {pos : ℕ} {r : SnapshotReader σ}, ReadTo v s pos r →
    wp (readBytes v n) (fun _ r' => ReadTo v s (pos + n) r') (fun _ _ => True) r
  | 0, _, _, hr => hr
  | n + 1, pos, r, hr => by
    refine wp_seq (wp_readByte_any hr) ?_
    rintro _ r1 ⟨-, hr1⟩
    refine wp_seq (wp_readBytes_any n hr1) ?_
    intro _ r2 hr2
    rw [show pos + (n + 1) = pos + 1 + n by omega]
    exact hr2

lemma wp_start_any {s1 : σ} (hread : Readable v s1) (hsame : metadata v s1 = metadata v s) :
    wp (start v) (fun _ d => Yielded v s [] d) (fun _ _ => True) (atStart s1) := by
  have h0 : ReadTo v s 0 (atStart s1).reader :=
    ⟨hread, hsame, by rw [atStart, zero_mul]; rfl, le_refl _, fun h => absurd h (lt_irrefl 0)⟩
  refine wp_guard_seq (fun _ => trivial) fun _ => ?_
  rw [wp_bind, onReader, wp_zoom]
  refine wp_mono (wp_readBytes_any 8 h0) ?_ (fun _ _ _ => trivial)
  intro header r hr
  rw [wp_bind, wp_guard]
  refine ⟨fun _ => ⟨hr, fun more hmore => hmore⟩, fun _ => trivial⟩

/-! ## Records -/

/-- The slot number that the stream has for the parent of slot 0: the two bytes behind the generation. -/
def RootParentSlot (v : V) (s : σ) (slot : ℕ) : Prop :=
  ∃ out, out.length = 6 ∧ Expands (metadataByte v s) false 0 8 out ∧ slot = leVal (out.drop 4)

lemma wp_restoreRecord_parent {record : ObjectRecord} (hd : Yielded v s [] d) :
    wp (restoreRecord v record) (fun r _ => RootParentSlot v s r.parent.slot) (fun _ _ => True) d := by
  refine wp_seq (wp_readExact_any 4 hd) ?_
  rintro generation d1 ⟨hgen, hd1⟩
  refine wp_seq (wp_readExact_any 2 hd1) ?_
  rintro slot d2 ⟨hslot, hd2⟩
  have hparent : RootParentSlot v s (leVal slot) := by
    refine ⟨generation ++ slot, by simp [hgen, hslot], ?_, by rw [← hgen, drop_left]⟩
    have := hd2.stream [] .nil
    rwa [append_nil] at this
  refine wp_bind_any fun _ _ => ?_
  rw [wp_bind, wp_orFail]
  refine ⟨fun id hid => ?_, fun _ => trivial⟩
  have hid : id.slot = leVal slot := by
    unfold ObjectId.make at hid
    split at hid
    · cases hid
    · cases hid
      rfl
  rw [← hid] at hparent
  -- what is read behind the parent does not matter
  repeat refine wp_bind_any fun _ _ => ?_
  exact hparent

end Arbitrary

variable {slot : ℕ} {r : ObjectRecord} {objects : ObjectNamespace} {parent : ObjectId}

/-- What the decoder itself checks of a record. -/
structure ObjectRecord.Decoded (r : ObjectRecord) : Prop where
  nameLength : r.nameLength ≤ maxComponentBytes
  extents : ∀ e ∈ r.extents, 0 < e.blocks

lemma wp_readExtents_pos (count : ℕ) : ∀ (n index : ℕ) (d : SnapshotDecoder σ),
    wp (readExtents v count index n) (fun l _ => ∀ e ∈ l, 0 < e.blocks) (fun _ _ => True) d
  | 0, _, _ => nofun
  | n + 1, index, d => by
    refine wp_bind_any fun _ _ => wp_bind_any fun _ _ => ?_
    split
    · refine wp_guard_seq (fun _ => trivial) fun hpos => ?_
      refine wp_seq (wp_readExtents_pos count n (index + 1) _) ?_
      intro l _ hl e he
      rcases mem_cons.mp he with rfl | he
      · exact pos_of_ne_zero (by simpa using hpos)
      · exact hl e he
    · rw [wp_bind, wp_guard]
      exact ⟨fun _ => wp_readExtents_pos count n (index + 1) _, fun _ => trivial⟩

lemma wp_restoreRecord_decoded {record : ObjectRecord} {d : SnapshotDecoder σ} :
    wp (restoreRecord v record) (fun r _ => r.Decoded) (fun _ _ => True) d := by
  iterate 8 refine wp_bind_any fun _ _ => ?_
  refine wp_guard_seq (fun _ => trivial) fun hname => ?_
  iterate 4 refine wp_bind_any fun _ _ => ?_
  refine wp_seq (wp_readExtents_pos _ _ _ _) ?_
  intro extents _ hpos
  iterate 3 refine wp_bind_any fun _ _ => ?_
  exact ⟨by simpa using hname, hpos⟩

lemma wp_restoreRecords_decoded : ∀ (records : List ObjectRecord) (d : SnapshotDecoder σ),
    wp (restoreRecords v records) (fun l _ => ∀ r ∈ l, r.Decoded) (fun _ _ => True) d
  | [], _ => nofun
  | record :: records, d => by
    refine wp_seq wp_restoreRecord_decoded ?_
    intro r d1 hr
    refine wp_seq (wp_restoreRecords_decoded records d1) ?_
    intro l _ hl x hx
    rcases mem_cons.mp hx with rfl | hx
    · exact hr
    · exact hl x hx

lemma ObjectNamespace.live_ofRecords {records : List ObjectRecord}
    (h : (ofRecords records).Live slot r) : records[slot]? = some r := by
  obtain ⟨hslot, halive⟩ := h
  unfold ofRecords at hslot
  obtain ⟨hlt, rfl⟩ := Vector.getElem?_eq_some_iff.mp hslot
  rw [Vector.getElem_ofFn] at halive ⊢
  by_cases hl : slot < records.length
  · rw [getD_eq_getElem _ _ hl]
    exact getElem?_eq_getElem hl
  · rw [getD_eq_default _ _ (not_lt.mp hl)] at halive
    cases halive

/-- The tables passed all checks. -/
structure Checked (v : V) (ns : ObjectNamespace) (c : PackageCatalog) : Prop where
  decoded : ∀ slot r, ns.Live slot r → r.Decoded
  root : ns.checkRoot = .ok ()
  objects : ∀ slot r, slot ≠ 0 → ns.Live slot r → ns.checkObject slot r = .ok ()
  files : ∀ slot r, ns.Live slot r → ns.checkFile (NamespaceVolume.dataArena v) slot r = .ok ()
  packages : ∃ bytes, PackageCatalog.restoreSnapshot bytes (NamespaceVolume.packageArena v) = .ok c
  apart : ns.checkPackages c.usedExtents = .ok ()

lemma wp_decodeSnapshot_checked {d : SnapshotDecoder σ} :
    wp (decodeSnapshot v objects) (fun r _ => Checked v r.1 r.2) (fun _ _ => True) d := by
  refine wp_bind_any fun _ _ => ?_
  refine wp_seq (wp_restoreRecords_decoded _ _) ?_
  intro records d1 hdec
  rw [wp_bind, wp_lift]
  refine ⟨fun _ hroot => ?_, fun _ _ => trivial⟩
  rw [wp_bind, wp_lift]
  refine ⟨fun _ hobjects => ?_, fun _ _ => trivial⟩
  rw [wp_bind, wp_lift]
  refine ⟨fun _ hfiles => ?_, fun _ _ => trivial⟩
  refine wp_bind_any fun bytes _ => wp_bind_any fun _ _ => ?_
  rw [wp_bind, wp_mapErr, wp_lift]
  refine ⟨fun packages hpackages => ?_, fun _ _ => trivial⟩
  rw [wp_bind, wp_lift]
  refine ⟨fun _ hapart => ?_, fun _ _ => trivial⟩
  refine ⟨?_, hroot, ?_, ?_, ⟨bytes, hpackages⟩, hapart⟩
  · intro slot r hr
    exact hdec r (mem_of_getElem? (ObjectNamespace.live_ofRecords hr))
  · intro slot r hne hr
    have hzip : (ObjectNamespace.ofRecords records).records.toList.zipIdx[slot]? = some (r, slot) := by
      rw [getElem?_zipIdx, Vector.getElem?_toList, hr.1, map_some, zero_add]
    have hmem : (r, slot) ∈ (ObjectNamespace.ofRecords records).records.toList.zipIdx.drop 1 := by
      refine mem_of_getElem? (i := slot - 1) ?_
      rw [getElem?_drop, show 1 + (slot - 1) = slot by omega, hzip]
    exact forM_eq_ok.mp hobjects _ hmem
  · intro slot r hr
    exact forM_eq_ok.mp hfiles (r, slot) (mem_zipIdx_iff_getElem?.mpr (by rw [Vector.getElem?_toList]; exact hr.1))

lemma wp_decodeSnapshot_parent [ReadableVolume σ V T] {s s1 : σ} (hread : Readable v s1)
    (hsame : metadata v s1 = metadata v s) :
    wp (decodeSnapshot v .new) (fun r _ => ∀ x, r.1.Live 0 x → RootParentSlot v s x.parent.slot) (fun _ _ => True)
      (atStart s1) := by
  refine wp_seq (wp_start_any hread hsame) ?_
  intro _ d hd
  have hnew : ∃ r l, ObjectNamespace.new.records.toList = r :: l := ⟨_, _, rfl⟩
  obtain ⟨first, others, hnew⟩ := hnew
  rw [hnew, wp_bind]
  refine wp_seq (wp_restoreRecord_parent hd) ?_
  intro root d1 hroot
  refine wp_bind_any fun rest _ => ?_
  have hgoal : ∀ x, (ObjectNamespace.ofRecords (root :: rest)).Live 0 x → RootParentSlot v s x.parent.slot := by
    intro x hx
    have : some root = some x := ObjectNamespace.live_ofRecords hx
    cases this
    exact hroot
  repeat refine wp_bind_any fun _ _ => ?_
  exact hgoal

/-! ## What is accepted -/

/-- A namespace and a package catalog that belong together: a tree of files and directories, and packages, none of which
share a block, each kind in its arena. -/
structure Consistent (dataArena : ℕ × ℕ) (packageArena : Option (ℕ × ℕ)) (ns : ObjectNamespace) (c : PackageCatalog) : Prop where
  tree : ns.WellFormed
  files : ns.FilesApart dataArena
  packages : ∀ e ∈ c.usedExtents, ∃ arena, packageArena = some arena ∧ Inside arena e
  packagesApart : c.usedExtents.Pairwise Extent.Disjoint
  apart : ∀ slot r, ns.Live slot r → ∀ e ∈ r.extents, ∀ p ∈ c.usedExtents, e.Disjoint p

/-- The namespace with nothing but a root, whose parent is `parent`. -/
def bareRoot (parent : ObjectId) : ObjectNamespace :=
  ObjectNamespace.new.set 0 { ObjectRecord.empty with generation := 1, parent := parent, kind := .directory, alive := true }

lemma live_bareRoot (h : (bareRoot parent).Live slot r) :
    slot = 0 ∧ r = { ObjectRecord.empty with generation := 1, parent := parent, kind := .directory, alive := true } := by
  obtain ⟨hr, halive⟩ := h
  match slot with
  | 0 => exact ⟨rfl, (some.inj hr).symm⟩
  | 1 | 2 | 3 =>
    obtain rfl := some.inj hr
    cases halive

lemma linked_bareRoot : (bareRoot parent).Linked where
  root := ⟨_, ⟨rfl, rfl⟩, rfl, rfl⟩
  parent slot r hne hr := absurd (live_bareRoot hr).1 hne
  below slot r hr := by
    obtain ⟨rfl, rfl⟩ := live_bareRoot hr
    exact .root
  siblings slot slot' r r' hr hr' _ _ := (live_bareRoot hr).1.trans (live_bareRoot hr').1.symm
  names slot r hne hr := absurd (live_bareRoot hr).1 hne
  lengths slot r hr := by
    obtain ⟨-, rfl⟩ := live_bareRoot hr
    exact zero_le _

lemma extents_bareRoot (h : (bareRoot parent).Live slot r) : r.extents = [] := by
  obtain ⟨-, rfl⟩ := live_bareRoot h
  rfl

lemma filesApart_bareRoot (arena : ℕ × ℕ) : (bareRoot parent).FilesApart arena := by
  refine ⟨?_, ?_, ?_, ?_⟩
  · intro slot r hr hne
    exact absurd (extents_bareRoot hr) hne
  · intro slot r hr e he
    rw [extents_bareRoot hr] at he
    cases he
  · intro slot r hr
    rw [extents_bareRoot hr]
    exact .nil
  · intro slot slot' r r' _ hr _ e he
    rw [extents_bareRoot hr] at he
    cases he

lemma wellFormed_bareRoot (horphan : maxObjects ≤ parent.slot) : (bareRoot parent).WellFormed := by
  have h : (bareRoot parent).Linked := linked_bareRoot
  refine ObjectNamespace.wellFormed_of_checks h.lengths h.checkRoot (fun _ _ => h.checkObject) fun r hr p hp => ?_
  obtain ⟨-, rfl⟩ := live_bareRoot hr
  exact absurd hp.1.lt (not_lt.mpr horphan)

lemma usedExtents_eq_nil {c : PackageCatalog} (h : ∀ i r, ¬ c.Live i r) : c.usedExtents = [] := by
  rw [eq_nil_iff_forall_not_mem]
  intro e he
  obtain ⟨i, r, hr, -⟩ := mem_usedExtents_iff.mp he
  exact h i r hr

lemma consistent_new (dataArena : ℕ × ℕ) (packageArena : Option (ℕ × ℕ)) : Consistent dataArena packageArena .new .new := by
  refine ⟨wellFormed_bareRoot (by decide), filesApart_bareRoot _, ?_, ?_, ?_⟩
  · intro e he
    cases he
  · exact .nil
  · intro slot r hr e he
    rw [extents_bareRoot hr] at he
    cases he

lemma Checked.consistent {ns : ObjectNamespace} {c : PackageCatalog} (h : Checked v ns c)
    (horphan : ∀ r, ns.Live 0 r → ∀ p, ¬ ns.Names r.parent p) : Consistent (dataArena v) (packageArena v) ns c := by
  obtain ⟨bytes, hrestore⟩ := h.packages
  obtain ⟨records, hc, hcheck, hpos⟩ := restoreSnapshot_eq_ok hrestore
  have hpackages : (∃ arena, packageArena v = some arena ∧ c.LaidOut arena) ∨ c.usedExtents = [] := by
    rcases harena : packageArena v with _ | arena
    · exact .inr (usedExtents_eq_nil (hc ▸ not_live_of_checkRecords (harena ▸ hcheck)))
    · exact .inl ⟨arena, rfl, hc ▸ laidOut_of_checkRecords hpos (harena ▸ hcheck)⟩
  refine ⟨?_, ?_, ?_, ?_, ObjectNamespace.disjoint_of_checkPackages h.apart⟩
  · exact ObjectNamespace.wellFormed_of_checks (fun slot r hr => (h.decoded slot r hr).nameLength) h.root h.objects horphan
  · exact ObjectNamespace.filesApart_of_checks (fun slot r hr => (h.decoded slot r hr).extents) h.files
  · intro e he
    rcases hpackages with ⟨arena, harena, hlaid⟩ | hnil
    · exact ⟨arena, harena, hlaid.inside he⟩
    · rw [hnil] at he
      cases he
  · rcases hpackages with ⟨arena, -, hlaid⟩ | hnil
    · exact hlaid.pairwise
    · rw [hnil]
      exact .nil

/-! ## Tables that are accepted -/

/-- **The checks accept consistent tables.** -/
theorem acceptSnapshot_eq_ok {v : SystemCatalogVolume} {ns : ObjectNamespace} {c : PackageCatalog} (hfit : ns.Fits)
    (hlinked : ns.Linked) (hfiles : ns.FilesApart v.userArena) (huser : v.userArena.2 < 2 ^ 64) (hcoded : c.Coded)
    (hlaid : c.LaidOut v.packageArena) (hpackage : v.packageArena.2 < 2 ^ 64)
    (hapart : ∀ slot r, ns.Live slot r → ∀ e ∈ r.extents, ∀ p ∈ c.usedExtents, e.Disjoint p) :
    acceptSnapshot v ns c.encodeSnapshot = .ok c := by
  refine bind_eq_ok.mpr ⟨(), hlinked.checkRoot, bind_eq_ok.mpr ⟨(), ?_, bind_eq_ok.mpr ⟨(), ?_, ?_⟩⟩⟩
  · rw [forM_eq_ok]
    rintro ⟨r, slot⟩ hmem
    obtain ⟨i, hi⟩ := mem_iff_getElem?.mp hmem
    rw [getElem?_drop, getElem?_zipIdx, map_eq_some_iff] at hi
    obtain ⟨x, hx, heq⟩ := hi
    cases heq
    rw [Vector.getElem?_toList] at hx
    rcases halive : r.alive with _ | _
    · exact if_pos halive
    · exact hlinked.checkObject (by omega) ⟨by rw [zero_add]; exact hx, halive⟩
  · rw [forM_eq_ok]
    rintro ⟨r, slot⟩ hmem
    have hr := mem_zipIdx_iff_getElem?.mp hmem
    have hfits := hfit.record r (mem_of_getElem? hr)
    rw [Vector.getElem?_toList] at hr
    rcases halive : r.alive with _ | _
    · exact if_pos (.inl halive)
    · exact hfiles.checkFile huser ⟨hr, halive⟩ hfits.extentCount hfits.capacity
  · unfold acceptPackages
    rw [restoreSnapshot_encodeSnapshot hcoded (checkRecords_of_laidOut hcoded hlaid hpackage)]
    refine bind_eq_ok.mpr ⟨(), ?_, rfl⟩
    exact ObjectNamespace.checkPackages_of_disjoint hfiles huser (fun p hp => hlaid.inside hp) hpackage hapart

/-- A healthy store gives back the tables that the checks accept. -/
theorem restore_of_snapshotted {σ : Type} [BlockStore σ] [LawfulStore σ] {s : σ} {v : SystemCatalogVolume}
    {packages : PackageCatalog} (hstored : Snapshotted s v objects packages)
    (hfit : objects.Fits) (hhealthy : Healthy s)
    (haccept : acceptSnapshot v objects packages.encodeSnapshot = .ok packages) :
    ∃ s', restoreSnapshotFromStore v .new .new s = (.ok (objects, packages), s') ∧ Evolves noWrite s s' := by
  have hwp := wp_restoreSnapshotFromStore hstored hfit
  obtain ⟨⟨ns, c⟩, s', hrun, hns, hc, he⟩ := exists_ok_of_wp hwp (by
    rintro e s' ⟨⟨-, hsick⟩ | hrej, -⟩
    · exact hsick hhealthy
    · rw [haccept] at hrej
      cases hrej)
  obtain rfl : ns = objects := hns
  obtain rfl : packages = c := Except.ok.inj (haccept.symm.trans hc)
  exact ⟨s', hrun, he⟩

/-! ## A root that is its own child -/

lemma nonzero_recordBytes_le (r : ObjectRecord) :
    nonzero (recordBytes r) ≤ 115 + nonzero r.name.toList + nonzero r.data.toList := by
  have hle : ∀ w x, nonzero (leBytes w x) ≤ w := fun w x => by
    simpa using nonzero_le_length (leBytes w x)
  have h1 := hle 4 r.generation
  have h2 := hle 2 r.parent.slot
  have h3 := hle 4 r.parent.generation
  have h4 : nonzero [r.kind.toByte] ≤ 1 := nonzero_le_length _
  have h5 : nonzero [if r.alive then 1 else 0] ≤ 1 := nonzero_le_length _
  have h6 := hle 2 r.nameLength
  have h7 := hle 4 r.length
  have h8 : nonzero [UInt8.ofNat r.extents.length] ≤ 1 := nonzero_le_length _
  have h9 : nonzero (extentBytes r.extents) ≤ 96 := by simpa using nonzero_le_length (extentBytes r.extents)
  rw [recordBytes]
  simp only [nonzero_append]
  omega

lemma nonzero_zeros (n : ℕ) : nonzero (Bytes.zeros n).toList = 0 := by
  rw [nonzero, countP_eq_zero]
  intro b hb
  simp only [Bytes.zeros, Vector.toList_ofFn, mem_ofFn] at hb
  obtain ⟨-, rfl⟩ := hb
  decide

lemma nonzero_encodeSnapshot_new : nonzero new.encodeSnapshot ≤ 2 := by
  have hrecords : nonzero (new.records.toList.flatMap fun r => (encodeRecord r).toList) ≤ 16 * 0 := by
    have := nonzero_flatMap_le (k := 0) (l := new.records.toList) (f := fun r => (encodeRecord r).toList) ?_
    · simpa using this
    · intro r hr
      rw [eq_of_mem_replicate hr, encodeRecord_empty, nonzero_replicate_zero]
  rw [encodeSnapshot, nonzero_cons, nonzero_cons]
  split <;> split <;> omega

/-- A snapshot of small tables fits into one block. -/
theorem length_encodedSnapshot_le
    (hsmall : ∀ r ∈ objects.records.toList, nonzero r.name.toList = 0 ∧ nonzero r.data.toList = 0) :
    (encodedSnapshot objects .new).length ≤ 4096 := by
  have hlen : (snapshotString objects new.encodeSnapshot).length = 36746 :=
    length_snapshotString objects (length_encodeSnapshot .new)
  have hrec : nonzero (objects.records.toList.flatMap recordBytes) ≤ 460 := by
    have := nonzero_flatMap_le (k := 115) fun r hr => by
      have h := nonzero_recordBytes_le r
      rw [(hsmall r hr).1, (hsmall r hr).2] at h
      exact h
    simpa using this
  have hnz : nonzero (snapshotString objects new.encodeSnapshot) ≤ 462 := by
    have := nonzero_encodeSnapshot_new
    rw [snapshotString, nonzero_append]
    omega
  have hruns := length_encodeRuns_le 255 (snapshotString objects new.encodeSnapshot)
  rw [length_encodedSnapshot]
  omega

/-- A volume with one block of metadata. -/
def oneBlockVolume : SystemCatalogVolume where
  root := {
    generation := 2, metadataStart := 7, metadataBlocks := 1, metadataBytes := 4096
    catalogStart := 0, catalogBlocks := 0, catalogBytes := 0
    bitmapSlot := 0, bitmapStart := 62, bitmapBlocks := 1
    systemStart := 4, systemEnd := 20, userStart := 20, userEnd := 40, packageStart := 40, packageEnd := 62 }
  activeSuperblock := 0

/-- A device with the snapshot of these objects in that block. -/
def deviceWith (objects : ObjectNamespace) : CrashStore :=
  .boot 64 fun i => chunkBlock (encodedSnapshot objects .new) (i - 7)

lemma snapshotted_deviceWith (hlen : (encodedSnapshot objects .new).length ≤ 4096) :
    Snapshotted (deviceWith objects) oneBlockVolume objects .new := by
  refine ⟨⟨trivial, ?_, fun _ _ => trivial, (by decide : 7 + 1 ≤ 64), ?_⟩, by decide⟩
  · intro k hk
    have hk : k = 0 := lt_one_iff.mp hk
    subst hk
    rfl
  · exact hlen

lemma mem_bareRoot (h : r ∈ (bareRoot parent).records.toList) :
    r = { ObjectRecord.empty with generation := 1, parent := parent, kind := .directory, alive := true } ∨ r = .empty := by
  obtain ⟨slot, hslot⟩ := mem_iff_getElem?.mp h
  match slot with
  | 0 => exact .inl (some.inj hslot).symm
  | 1 | 2 | 3 => exact .inr (some.inj hslot).symm

lemma fits_bareRoot (hslot : parent.slot < 2 ^ 16) (hgen : parent.generation ≠ 0 ∧ parent.generation < 2 ^ 32) :
    (bareRoot parent).Fits := by
  refine ⟨fun r hr => ?_, rfl⟩
  rcases mem_bareRoot hr with rfl | rfl
  · exact ⟨(by decide : 1 < 2 ^ 32), hslot, hgen, zero_le _, (by decide : 0 < 2 ^ 32), zero_le _,
      fun e he => absurd he not_mem_nil, fun _ => zero_le _, fun h => absurd rfl h⟩
  · exact ⟨(by decide : 0 < 2 ^ 32), (by decide : 65535 < 2 ^ 16), (by decide : (1 ≠ 0 ∧ 1 < 2 ^ 32)), zero_le _,
      (by decide : 0 < 2 ^ 32), zero_le _, fun e he => absurd he not_mem_nil, fun _ => zero_le _,
      fun h => absurd rfl h⟩

lemma length_bareRoot : (encodedSnapshot (bareRoot parent) .new).length ≤ 4096 := by
  refine length_encodedSnapshot_le fun r hr => ?_
  rcases mem_bareRoot hr with rfl | rfl <;> exact ⟨nonzero_zeros _, nonzero_zeros _⟩

lemma acceptSnapshot_bareRoot (hslot : parent.slot < 2 ^ 16) (hgen : parent.generation ≠ 0 ∧ parent.generation < 2 ^ 32) :
    acceptSnapshot oneBlockVolume (bareRoot parent) new.encodeSnapshot = .ok .new := by
  refine acceptSnapshot_eq_ok (fits_bareRoot hslot hgen) linked_bareRoot (filesApart_bareRoot _)
    (by decide : 40 < 2 ^ 64) coded_new (laidOut_new _) (by decide : 62 < 2 ^ 64) ?_
  intro slot r hr e he
  rw [extents_bareRoot hr] at he
  cases he

/-- The parent slot of the root is found in the stream. -/
theorem rootParentSlot_deviceWith (hlen : (encodedSnapshot objects .new).length ≤ 4096)
    (h : RootParentSlot oneBlockVolume (deviceWith objects) slot) :
    slot = leVal (((snapshotString objects new.encodeSnapshot).take 6).drop 4) := by
  obtain ⟨out, hout, hexp, rfl⟩ := h
  have hstr : (snapshotString objects new.encodeSnapshot).length = 36746 :=
    length_snapshotString objects (length_encodeSnapshot .new)
  have htake := hexp.eq_take (yields_encodeRuns (n := 255) (by decide) (snapshotString objects new.encodeSnapshot))
    ?_ (by omega)
  · rw [hout] at htake
    rw [← htake]
  intro k hk
  have hpos : 8 + k < 4096 := by
    rw [length_encodedSnapshot] at hlen
    omega
  have hcontent : metadata oneBlockVolume (deviceWith objects) 0 = chunkBlock (encodedSnapshot objects .new) 0 := rfl
  rw [metadataByte, div_eq_of_lt hpos, mod_eq_of_lt hpos, hcontent, byteAt_chunkBlock _ _ _ hpos, zero_mul]
  unfold encodedSnapshot
  rw [getD_append_right _ _ _ _ (by simp)]
  simp

/-! ## What is persisted -/

open SystemCatalogVolume CrashStore

/-- **What is persisted is restored.**  The transaction writes the stream into an extent that the root does not use. -/
theorem committed_snapshot_restores {σ : Type} [BlockStore σ] [LawfulStore σ] {s : σ} {v : SystemCatalogVolume}
    {t : SystemCatalogTransaction} {metadata : Extent} {packages : PackageCatalog} {n : ℕ}
    (hn : n = encodedSnapshotLength (.new objects packages.encodeSnapshot)) (hblocks : metadata.blocks = blocksFor n)
    (hmax : metadata.blocks ≤ storageSnapshotMaxBlocks) (hv : VolumeOk s v) (hhealthy : Healthy s) (hroot : t.root = v.root)
    (ht : metadata ∈ t.allocated) (hc : Committable s v t metadata) (hfree : ∀ i, metadata.Covers i → ¬ Used s v.root i)
    (harena : extentInArena metadata v.systemArena) (hgen : v.root.generation + 1 < 2 ^ 64) (hfit : objects.Fits)
    (haccept : acceptSnapshot v objects packages.encodeSnapshot = .ok packages) :
    ∃ s1 v' s2 s3, writeSnapshotStream t metadata (.new objects packages.encodeSnapshot) n s = (.ok (), s1) ∧
      v.commit t metadata n s1 = (.ok v', s2) ∧ VolumeOk s2 v' ∧
      restoreSnapshotFromStore v' .new .new s2 = (.ok (objects, packages), s3) := by
  rw [encodedSnapshotLength_new] at hn
  subst hn
  have hlen := length_encodedSnapshot objects packages
  have hvalid := hv.valid
  have := hvalid.count_le; have := hvalid.systemEnd_le; have := hvalid.systemStart; have := hvalid.userStart
  have := hvalid.bitmapStart
  obtain ⟨hne, hlo, hhi⟩ := (extentInArena_iff (show v.root.systemEnd < 2 ^ 64 by omega)).mp harena
  obtain ⟨-, hsize, -⟩ := blocksFor_spec (n := (encodedSnapshot objects packages).length) (by omega)
  rw [← hblocks] at hsize
  -- the stream spares what the root uses, so the volume stays at rest
  obtain ⟨⟨⟩, s1, hwrite, he, hholds⟩ := exists_ok_of_wp (wp_writeSnapshotStream objects packages
    ⟨hv.inv, fun i hi => ⟨metadata, ht, hi⟩, by omega⟩ hblocks) fun e s' h => h.2.2 hhealthy
  have hspares : Spares s v.root (extentWrites metadata) := fun j c hj =>
    ⟨by have := hj.2; unfold bitmapBlock; omega, hfree j hj⟩
  have hv1 := hv.evolves he hspares fun j c hj => by have := hj.1; omega
  -- the commit publishes the extent and keeps its blocks
  obtain ⟨v', s2, hcommit, hp⟩ := exists_ok_of_wp
    (wp_commit hv1 metadata (encodedSnapshot objects packages).length fun _ _ =>
      { hc with bitmap := by rw [bitmapOf_evolves he hspares]; exact hc.bitmap }) fun e s' h =>
    h.reason.elim (fun h => h.2 (he.healthy hhealthy)) fun h =>
      h.2.2 _ _ ⟨hroot, by omega, by omega, hsize, harena, ht, hgen, rfl, rfl⟩
  suffices h : Snapshotted s2 v' objects packages ∧ acceptSnapshot v' objects packages.encodeSnapshot = .ok packages by
    obtain ⟨s3, hrestore, -⟩ := restore_of_snapshotted h.1 hfit (hp.frame.healthy (he.healthy hhealthy)) h.2
    exact ⟨s1, v', s2, s3, hwrite, hcommit, hp.atRest, hrestore⟩
  obtain ⟨root, active⟩ := v'
  obtain rfl := hp.plan.root
  refine ⟨⟨⟨hp.atRest.inv, fun k hk => ?_, fun k hk => hp.atRest.faithful _ (.inl ?_), ?_, hsize⟩, hmax⟩, haccept⟩ <;>
    dsimp only at *
  · rw [← hholds k hk]
    exact hp.data _ (by omega) (by dsimp only [bitmapBlock]; omega)
  · omega
  · rw [hp.frame.count, he.count]
    omega

theorem committed_snapshot_restores_first : ∃ v s t s1 v' s2 s3 n, format 4 9 blankDevice = (.ok v, s) ∧
    writeSnapshotStream t ⟨4, 1⟩ (.new (bareRoot ⟨65535, 1⟩) new.encodeSnapshot) n s = (.ok (), s1) ∧
      v.commit t ⟨4, 1⟩ n s1 = (.ok v', s2) ∧ VolumeOk s2 v' ∧
      restoreSnapshotFromStore v' .new .new s2 = (.ok (bareRoot ⟨65535, 1⟩, .new), s3) := by
  obtain ⟨⟨root, active⟩, s, he, rfl, hok, hbm, hh⟩ := format_blankDevice
  -- for any length: the one of the snapshot would be evaluated
  have hone : ∀ n, 8 ≤ n → n ≤ 4096 → 1 = blocksFor n := fun n h1 h2 => by unfold blocksFor blockBytes; omega
  have hfit : (bareRoot ⟨65535, 1⟩).Fits := fits_bareRoot (by decide) (by decide)
  have hc : Committable s ⟨firstRoot 12 4 9, active⟩ ⟨firstRoot 12 4 9, Block.zero, 1, [⟨4, 1⟩], []⟩ ⟨4, 1⟩ :=
    ⟨hbm.symm, rfl, forall_mem_singleton.mpr (by decide : 4 ≤ 4 ∧ 4 + 1 ≤ 10), by simp, by simp,
      fun i _ h => absurd h.2 (not_lt_zero i)⟩
  obtain ⟨s1, v', s2, s3, h⟩ := committed_snapshot_restores (encodedSnapshotLength_new _ _).symm
    (hone _ (by rw [length_encodedSnapshot]; exact le_add_right _ _) length_bareRoot) (by decide) hok hh rfl mem_cons_self hc
    (fun i _ => by simp [Used, hbm, bitmapIsSet_zero]) (by decide : extentInArena ⟨4, 1⟩ (4, 8)) (by decide : 1 + 1 < 2 ^ 64) hfit
    (acceptSnapshot_eq_ok hfit linked_bareRoot (filesApart_bareRoot _) (by decide : 9 < 2 ^ 64) coded_new (laidOut_new _)
      (by decide : 10 < 2 ^ 64) fun slot r hr e he => by rw [extents_bareRoot hr] at he; cases he)
  exact ⟨_, s, _, s1, v', s2, s3, _, he, h⟩

end LogOS.StorageService
