import LogOS.StorageService.Encode
import Mathlib.Data.List.Forall2

/-!
# What the decoder reads back

The metadata blocks of a volume hold an encoded string.  `SnapshotReader.At` says how far the reader has come in it, and
`SnapshotDecoder.At out` that the decoder has still to yield `out`; with these, every field of a record is read back as it
was stored, and `wp_restoreSnapshotFromStore` follows: the decoder finds the records of the snapshot, and it depends on
the checks alone whether it accepts them.
-/

namespace LogOS.StorageService

open Lib Storage Storage.Catalog Op SnapshotDecoder List

variable {σ : Type} [BlockStore σ] [LawfulStore σ] {s : σ} {v : SystemCatalogVolume} {l : List UInt8}

/-- The metadata blocks of the volume hold the string `l`, and are read as they are. -/
structure Stores (s : σ) (v : SystemCatalogVolume) (l : List UInt8) : Prop where
  inv : StoreModel.Inv s
  holds : HoldsChunks s v.root.metadataStart v.root.metadataBlocks l
  faithful : ∀ k < v.root.metadataBlocks, faithful s (v.root.metadataStart + k)
  inside : v.root.metadataStart + v.root.metadataBlocks ≤ blockCount s
  size : l.length ≤ v.root.metadataBlocks * 4096

/-- The reading stopped at an I/O error. -/
def ReadError (s : σ) (e : NamespaceError) (s' : σ) : Prop := Evolves noWrite s s' ∧ (∃ b, e = .block b) ∧ ¬ Healthy s

lemma wp_readMetadataBlock (h : Stores s v l) {s' : σ} (he : Evolves noWrite s s') {k : ℕ} (hk : k < v.root.metadataBlocks) :
    wp ((readCatalogMetadataBlock v k).mapErr NamespaceError.ofCow)
      (fun block s'' => block = chunkBlock l k ∧ Evolves noWrite s s'') (ReadError s) s' := by
  have hin := h.inside
  rw [wp_mapErr, readCatalogMetadataBlock, if_neg (by omega), wp_mapErr]
  refine wp_readBlock (he.inv h.inv) (fun b s'' he' hb => ⟨?_, he.trans he'⟩) (fun e s'' he' hh => ?_)
  · rw [hb (he.faithful _ (h.faithful k hk)), he.view_eq_of_noWrite]
    exact h.holds k hk
  · exact ⟨he.trans he', ⟨e, rfl⟩, fun hs => hh (he.healthy hs) (by rw [he.count]; omega)⟩

namespace SnapshotReader

/-- The reader has read `pos` bytes. -/
structure At (s : σ) (l : List UInt8) (pos : ℕ) (r : SnapshotReader σ) : Prop where
  frame : Evolves noWrite s r.store
  position : pos + 4096 = r.blockNumber * 4096 + r.offset
  offset : r.offset ≤ 4096
  block : 0 < r.blockNumber → r.block = chunkBlock l (r.blockNumber - 1)

variable {pos : ℕ} {r : SnapshotReader σ}

omit [LawfulStore σ] in
/-- One byte of blocks that hold `content`, where `F` is what reading a block keeps of the store. -/
theorem wp_readByte_of {V T : Type} [NamespaceVolume V T] {v : V} {content : ℕ → Block} {F : σ → Prop}
    {E : NamespaceError → σ → Prop} (hF : F r.store) (hp : pos + 4096 = r.blockNumber * 4096 + r.offset)
    (ho : r.offset ≤ 4096) (hb : 0 < r.blockNumber → r.block = content (r.blockNumber - 1))
    (hend : r.offset = 4096 → r.blockNumber = NamespaceVolume.metadataBlocks v → E .invalidRecord r.store)
    (hread : r.offset = 4096 → wp ((NamespaceVolume.readMetadataBlock v r.blockNumber).mapErr .ofCow)
      (fun b s' => b = content r.blockNumber ∧ F s') E r.store) :
    wp (readByte v) (fun byte r' => byte = (content (pos / 4096)).byteAt (pos % 4096) ∧ F r'.store ∧
      pos + 1 + 4096 = r'.blockNumber * 4096 + r'.offset ∧ r'.offset ≤ 4096 ∧
      (0 < r'.blockNumber → r'.block = content (r'.blockNumber - 1))) (fun e r' => E e r'.store) r := by
  unfold readByte
  rw [wp_bind, wp_get]
  by_cases hfull : r.offset = blockBytes
  · have hfull' : r.offset = 4096 := hfull
    rw [if_pos hfull]
    refine wp_guard_seq (fun hg => hend hfull (by simpa using hg)) fun _ => ?_
    rw [wp_bind, wp_zoom]
    refine wp_mono (hread hfull) ?_ (fun _ _ he => he)
    rintro block s' ⟨rfl, hs'⟩
    refine ⟨?_, hs', by dsimp only; omega, by dsimp only; omega, fun _ => rfl⟩
    rw [show pos / 4096 = r.blockNumber by omega, show pos % 4096 = 0 by omega]
  · have hfull' : r.offset ≠ 4096 := hfull
    rw [if_neg hfull]
    refine ⟨?_, hF, by dsimp only; omega, by dsimp only; omega, hb⟩
    rw [hb (by omega), show r.blockNumber - 1 = pos / 4096 by omega, show r.offset = pos % 4096 by omega]

/-- **One byte.** -/
theorem wp_readByte (h : Stores s v l) (hr : At s l pos r) (hpos : pos < v.root.metadataBlocks * 4096) :
    wp (readByte v) (fun byte r' => byte = l.getD pos 0 ∧ At s l (pos + 1) r') (fun e r' => ReadError s e r'.store) r := by
  have hp := hr.position
  refine wp_mono (wp_readByte_of hr.frame hp hr.offset hr.block ?_ ?_) ?_ (fun _ _ he => he)
  · intro hfull (hg : r.blockNumber = v.root.metadataBlocks)
    omega
  · exact fun hfull => wp_readMetadataBlock h hr.frame (by omega)
  · rintro byte r' ⟨hbyte, hframe, hp', ho', hb'⟩
    refine ⟨hbyte.trans ?_, hframe, hp', ho', hb'⟩
    rw [byteAt_chunkBlock _ _ _ (Nat.mod_lt _ (by omega)), Nat.div_add_mod']

lemma wp_readBytes (h : Stores s v l) : ∀ (n : ℕ) {pos : ℕ} {r : SnapshotReader σ}, At s l pos r → pos + n ≤ l.length →
    wp (readBytes v n) (fun bytes r' => bytes = (l.drop pos).take n ∧ At s l (pos + n) r')
      (fun e r' => ReadError s e r'.store) r
  | 0, pos, r, hr, _ => ⟨by simp, hr⟩
  | n + 1, pos, r, hr, hn => by
    have hsize := h.size
    refine wp_seq (wp_readByte h hr (by omega)) ?_
    rintro byte r1 ⟨rfl, hr1⟩
    refine wp_seq (wp_readBytes h n hr1 (by omega)) ?_
    rintro bytes r2 ⟨rfl, hr2⟩
    refine ⟨?_, by rwa [show pos + (n + 1) = pos + 1 + n by omega]⟩
    rw [getD_eq_getElem _ _ (by omega), drop_eq_getElem_cons (show pos < l.length by omega), take_succ_cons]

end SnapshotReader

namespace SnapshotDecoder

/-- The decoder has still to yield `out`. -/
structure At (s : σ) (l out : List UInt8) (d : SnapshotDecoder σ) : Prop where
  reader : SnapshotReader.At s l d.consumed d.reader
  encodedLength : d.encodedLength = l.length
  consumed : d.consumed ≤ l.length
  yields : Yields d.runLiteral d.runRemaining (l.drop d.consumed) out
  output : d.outputOffset + out.length = storageSnapshotBytes

/-- The decoder stopped at an I/O error. -/
def Broken (s : σ) (e : NamespaceError) (d : SnapshotDecoder σ) : Prop := ReadError s e d.reader.store

variable {out : List UInt8} {d : SnapshotDecoder σ}

/-- One byte of the encoded string, at the place that the reader has come to. -/
theorem wp_readByte (h : Stores s v l) {pos : ℕ} (hr : SnapshotReader.At s l pos d.reader) {b : UInt8} {rest : List UInt8}
    (hdrop : l.drop pos = b :: rest) :
    wp (onReader (SnapshotReader.readByte v))
      (fun byte d' => byte = b ∧ d' = { d with reader := d'.reader } ∧ SnapshotReader.At s l (pos + 1) d'.reader ∧
        l.drop (pos + 1) = rest)
      (Broken s) d := by
  have hpos : pos < l.length := by
    by_contra hle
    rw [drop_eq_nil_iff.mpr (by omega)] at hdrop
    cases hdrop
  have hsize := h.size
  rw [onReader, wp_zoom]
  refine wp_mono (SnapshotReader.wp_readByte h hr (by omega)) ?_ (fun _ _ he => he)
  rintro byte r' ⟨rfl, hr'⟩
  rw [drop_eq_getElem_cons hpos] at hdrop
  obtain ⟨h1, h2⟩ := cons.inj hdrop
  exact ⟨by rw [getD_eq_getElem _ _ hpos, h1], rfl, hr', h2⟩

/-- The next run begins. -/
theorem wp_nextRun (h : Stores s v l) (hd : At s l out d) (hrun : d.runRemaining = 0) (hout : out ≠ []) :
    wp (nextRun v) (fun more d' => more = true ∧ At s l out d' ∧ d'.runRemaining ≠ 0) (Broken s) d := by
  have hy := hd.yields
  rw [hrun] at hy
  have hne : l.drop d.consumed ≠ [] := by
    intro hnil
    rw [hnil] at hy
    exact hout hy.done
  obtain ⟨flag, lo, hi, rest, hdrop, hpos, hy'⟩ := hy.next_run hne
  have hlen := congrArg length hdrop
  simp only [length_drop, length_cons] at hlen
  unfold nextRun
  rw [wp_bind, wp_get, if_neg (by rw [hd.encodedLength]; omega)]
  refine wp_guard_seq (fun hg => ?_) fun _ => ?_
  · rw [hd.encodedLength] at hg
    simp only [decide_eq_false_iff_not] at hg
    omega
  refine wp_seq (wp_readByte h hd.reader hdrop) ?_
  rintro _ d1 ⟨rfl, hd1, hr1, hdrop1⟩
  refine wp_seq (wp_readByte h hr1 hdrop1) ?_
  rintro _ d2 ⟨rfl, hd2, hr2, hdrop2⟩
  refine wp_seq (wp_readByte h hr2 hdrop2) ?_
  rintro _ d3 ⟨rfl, hd3, hr3, hdrop3⟩
  refine wp_guard_seq (fun hg => absurd hg (by simpa using hpos)) fun _ => ?_
  rw [hd2, hd1] at hd3
  rw [hd3]
  refine ⟨rfl, ⟨hr3, hd.encodedLength, by dsimp only; omega, ?_, hd.output⟩, hpos⟩
  rw [hdrop3]
  exact hy'

/-- The end of `next`: a byte of the run at hand. -/
theorem wp_runByte (h : Stores s v l) {b : UInt8} (hd : At s l (b :: out) d) (hrun : d.runRemaining ≠ 0) :
    wp (do
        let d ← Op.get
        Op.guard (d.outputOffset != storageSnapshotBytes) .invalidRecord
        let byte ← if d.runLiteral then onReader (SnapshotReader.readByte v) else Op.ret 0
        Op.modify fun d => { d with
          consumed := if d.runLiteral then d.consumed + 1 else d.consumed
          runRemaining := d.runRemaining - 1, outputOffset := d.outputOffset + 1 }
        Op.ret (some byte) : Op (SnapshotDecoder σ) NamespaceError (Option UInt8))
      (fun r d' => r = some b ∧ At s l out d') (Broken s) d := by
  have hy := hd.yields
  have ho := hd.output
  rw [length_cons] at ho
  obtain ⟨n, hn⟩ : ∃ n, d.runRemaining = n + 1 := ⟨d.runRemaining - 1, by omega⟩
  rw [hn] at hy
  refine wp_guard_seq (fun hg => ?_) fun _ => ?_
  · have : d.outputOffset = storageSnapshotBytes := by simpa using hg
    omega
  by_cases hlit : d.runLiteral = true
  · rw [hlit] at hy
    obtain ⟨b', input', out', hdrop, hcons, hy'⟩ := hy.literal_byte
    obtain ⟨rfl, rfl⟩ := cons.inj hcons
    have hlen := congrArg length hdrop
    simp only [length_drop, length_cons] at hlen
    rw [if_pos hlit]
    refine wp_seq (wp_readByte h hd.reader hdrop) ?_
    rintro _ d1 ⟨rfl, hd1, hr1, hdrop1⟩
    rw [wp_bind, wp_modify, hd1]
    simp only [hlit, if_true, hn]
    exact ⟨rfl, hr1, hd.encodedLength, by dsimp only; omega, by rw [hdrop1]; exact hy', by dsimp only; omega⟩
  · rw [Bool.not_eq_true] at hlit
    rw [hlit] at hy
    obtain ⟨out', hcons, hy'⟩ := hy.zero_byte
    obtain ⟨rfl, rfl⟩ := cons.inj hcons
    simp only [hlit, Bool.false_eq_true, if_false]
    rw [wp_bind, wp_ret, wp_bind, wp_modify]
    simp only [hlit, hn]
    exact ⟨rfl, hd.reader, hd.encodedLength, hd.consumed, hy', by dsimp only; omega⟩

/-- **The next byte.** -/
theorem wp_next (h : Stores s v l) {b : UInt8} (hd : At s l (b :: out) d) :
    wp (next v) (fun r d' => r = some b ∧ At s l out d') (Broken s) d := by
  unfold next
  rw [wp_bind, wp_get]
  by_cases hrun : d.runRemaining = 0
  · rw [if_pos hrun]
    refine wp_seq (wp_nextRun h hd hrun (by simp)) ?_
    rintro _ d1 ⟨rfl, hd1, hrun1⟩
    exact wp_runByte h hd1 hrun1
  · rw [if_neg hrun]
    exact wp_runByte h hd hrun

/-- Behind the last byte there is nothing. -/
theorem wp_next_end (hd : At s l [] d) : wp (next v) (fun r d' => r = none ∧ d' = d) (Broken s) d := by
  obtain ⟨hrun, hdrop⟩ := hd.yields.of_nil
  have hend := drop_eq_nil_iff.mp hdrop
  have hcons := hd.consumed
  unfold next nextRun
  rw [wp_bind, wp_get, if_pos hrun, wp_bind, wp_bind, wp_get, if_pos (by rw [hd.encodedLength]; omega)]
  exact ⟨rfl, rfl⟩

lemma wp_byte (h : Stores s v l) {b : UInt8} (hd : At s l (b :: out) d) :
    wp (byte v) (fun r d' => r = b ∧ At s l out d') (Broken s) d := by
  refine wp_seq (wp_next h hd) ?_
  rintro _ d1 ⟨rfl, hd1⟩
  exact ⟨rfl, hd1⟩

lemma wp_readExact (h : Stores s v l) : ∀ (bytes : List UInt8) {n : ℕ} {d : SnapshotDecoder σ}, bytes.length = n →
    At s l (bytes ++ out) d →
    wp (readExact v n) (fun r d' => r = bytes ∧ At s l out d') (Broken s) d
  | [], _, d, rfl, hd => ⟨rfl, hd⟩
  | b :: bytes, _, d, rfl, hd => by
    refine wp_seq (wp_byte h hd) ?_
    rintro _ d1 ⟨rfl, hd1⟩
    refine wp_seq (wp_readExact h bytes rfl hd1) ?_
    rintro _ d2 ⟨rfl, hd2⟩
    exact ⟨rfl, hd2⟩

/-- A number in front of the rest. -/
theorem wp_readNumber (h : Stores s v l) {w x : ℕ} (hx : x < 256 ^ w) (hd : At s l (leBytes w x ++ out) d) :
    wp (readExact v w) (fun r d' => leVal r = x ∧ At s l out d') (Broken s) d := by
  refine wp_mono (wp_readExact h _ (length_leBytes w x) hd) ?_ (fun _ _ he => he)
  rintro _ d1 ⟨rfl, hd1⟩
  exact ⟨leVal_leBytes_of_lt hx, hd1⟩

end SnapshotDecoder

/-! ## Records -/

/-- The fields of a record have the sizes that the format has room for. -/
structure ObjectRecord.Fits (record : ObjectRecord) : Prop where
  generation : record.generation < 2 ^ 32
  parentSlot : record.parent.slot < 2 ^ 16
  parentGeneration : record.parent.generation ≠ 0 ∧ record.parent.generation < 2 ^ 32
  nameLength : record.nameLength ≤ 255
  length : record.length < 2 ^ 32
  extentCount : record.extents.length ≤ 8
  extents : ∀ e ∈ record.extents, e.start < 2 ^ 64 ∧ 0 < e.blocks ∧ e.blocks < 2 ^ 32
  inline : record.extents = [] → record.length ≤ 8192
  capacity : record.extents ≠ [] → record.length ≤ Extent.total record.extents * 4096

namespace SnapshotDecoder

variable {out : List UInt8} {d : SnapshotDecoder σ}

lemma wp_readExtents (h : Stores s v l) {extents : List CowExtent}
    (hfit : ∀ e ∈ extents, e.start < 2 ^ 64 ∧ 0 < e.blocks ∧ e.blocks < 2 ^ 32) :
    ∀ (n index : ℕ) {d : SnapshotDecoder σ}, extents.length ≤ index + n →
      At s l ((range' index n).flatMap (fun k => encodeExtent (extents.getD k ⟨0, 0⟩)) ++ out) d →
      wp (readExtents v extents.length index n) (fun r d' => r = extents.drop index ∧ At s l out d') (Broken s) d
  | 0, index, d, hn, hd => ⟨(drop_eq_nil_iff.mpr hn).symm, hd⟩
  | n + 1, index, d, hn, hd => by
    have hsize : (extents.getD index ⟨0, 0⟩).start < 256 ^ 8 ∧ (extents.getD index ⟨0, 0⟩).blocks < 256 ^ 4 := by
      by_cases hi : index < extents.length
      · have := hfit _ (getElem_mem hi)
        rw [getD_eq_getElem _ _ hi]
        omega
      · rw [getD_eq_default _ _ (by omega)]
        exact ⟨by norm_num, by norm_num⟩
    refine wp_seq (wp_readNumber h hsize.1 hd) ?_
    rintro start d1 ⟨hstart, hd1⟩
    refine wp_seq (wp_readNumber h hsize.2 hd1) ?_
    rintro blocks d2 ⟨hblocks, hd2⟩
    rw [hstart, hblocks]
    by_cases hi : index < extents.length
    · have hpos := (hfit _ (getElem_mem hi)).2.1
      rw [getD_eq_getElem _ _ hi]
      rw [if_pos hi]
      refine wp_guard_seq (fun hg => ?_) fun _ => ?_
      · have : extents[index].blocks = 0 := by simpa using hg
        omega
      refine wp_seq (wp_readExtents h hfit n (index + 1) (by omega) hd2) ?_
      rintro _ d3 ⟨rfl, hd3⟩
      exact ⟨(drop_eq_getElem_cons hi).symm, hd3⟩
    · rw [getD_eq_default _ _ (by omega), if_neg hi]
      refine wp_mono (wp_readExtents h hfit n (index + 1) (by omega) hd2) ?_ (fun _ _ he => he)
      rintro _ d3 ⟨rfl, hd3⟩
      exact ⟨by rw [drop_eq_nil_iff.mpr (by omega), drop_eq_nil_iff.mpr (by omega)], hd3⟩

/-- **A record is read back.** -/
theorem wp_restoreRecord (h : Stores s v l) {record previous : ObjectRecord} (hfit : record.Fits)
    (hkind : record.extents ≠ [] → previous.kind = .file) (hd : At s l (recordBytes record ++ out) d) :
    wp (restoreRecord v previous) (fun r d' => r = record ∧ At s l out d') (Broken s) d := by
  have hcount : record.extents.length ≤ maxFileExtents := hfit.extentCount
  have hname : record.nameLength ≤ maxComponentBytes := hfit.nameLength
  simp only [recordBytes, append_assoc] at hd
  unfold restoreRecord
  refine wp_seq (wp_readNumber h hfit.generation hd) ?_
  rintro b1 d1 ⟨h1, hd1⟩
  refine wp_seq (wp_readNumber h hfit.parentSlot hd1) ?_
  rintro b2 d2 ⟨h2, hd2⟩
  refine wp_seq (wp_readNumber h hfit.parentGeneration.2 hd2) ?_
  rintro b3 d3 ⟨h3, hd3⟩
  rw [wp_bind, wp_orFail, h2, h3, ObjectId.make, if_neg hfit.parentGeneration.1]
  refine ⟨fun parent hp => ?_, fun h => by cases h⟩
  obtain rfl : record.parent = parent := by simpa using hp
  rw [wp_bind]
  refine wp_seq (wp_byte h hd3) ?_
  rintro _ d4 ⟨rfl, hd4⟩
  rw [wp_orFail, ObjectKind.ofByte_toByte]
  refine ⟨fun kind hk => ?_, fun h => by cases h⟩
  obtain rfl : record.kind = kind := by simpa using hk
  refine wp_seq (wp_byte h hd4) ?_
  rintro _ d5 ⟨rfl, hd5⟩
  refine wp_guard_seq (fun hg => ?_) fun _ => ?_
  · cases ha : record.alive <;> rw [ha] at hg <;> exact absurd hg (by decide)
  refine wp_seq (wp_readNumber h (lt_of_le_of_lt hname (by decide)) hd5) ?_
  rintro b6 d6 ⟨h6, hd6⟩
  rw [h6]
  refine wp_guard_seq (fun hg => absurd hname (by simpa using hg)) fun _ => ?_
  refine wp_seq (wp_readExact h _ record.name.length_toList hd6) ?_
  rintro _ d7 ⟨rfl, hd7⟩
  refine wp_seq (wp_readNumber h hfit.length hd7) ?_
  rintro b8 d8 ⟨h8, hd8⟩
  rw [h8]
  refine wp_seq (wp_byte h hd8) ?_
  rintro _ d9 ⟨rfl, hd9⟩
  have hcount' : (UInt8.ofNat record.extents.length).toNat = record.extents.length := by
    rw [UInt8.toNat_ofNat']
    exact Nat.mod_eq_of_lt (lt_of_le_of_lt hcount (by decide))
  rw [hcount']
  refine wp_guard_seq (fun hg => absurd hcount (by simpa using hg)) fun _ => ?_
  rw [extentBytes, range_eq_range'] at hd9
  refine wp_seq (wp_readExtents h hfit.extents maxFileExtents 0 (by rwa [zero_add]) hd9) ?_
  rintro _ d10 ⟨rfl, hd10⟩
  rw [drop_zero]
  refine wp_guard_seq (fun hg => ?_) fun _ => ?_
  · simp only [Bool.not_eq_false', Bool.and_eq_true, beq_iff_eq, decide_eq_true_eq, length_eq_zero_iff] at hg
    exact absurd (hfit.inline hg.1) (not_le.mpr hg.2)
  refine wp_guard_seq (fun hg => ?_) fun _ => ?_
  · simp only [Bool.not_eq_false', Bool.and_eq_true, bne_iff_ne, Bool.or_eq_true, decide_eq_true_eq, ne_eq,
      length_eq_zero_iff] at hg
    rcases hg.2 with hk | hc
    · exact absurd (hkind hg.1) hk
    · exact absurd (hfit.capacity hg.1) (not_le.mpr hc)
  refine wp_seq (wp_readExact h _ record.data.length_toList hd10) ?_
  rintro _ d11 ⟨rfl, hd11⟩
  refine ⟨?_, hd11⟩
  rw [h1, Bytes.splice_toList, Bytes.splice_toList]
  cases record with
  | mk generation parent kind alive nameLength name length extents data => cases alive <;> rfl

/-- The records are read back, into slots that may hold them. -/
theorem wp_restoreRecords (h : Stores s v l) {previous records : List ObjectRecord}
    (hfit : Forall₂ (fun p r => r.Fits ∧ (r.extents ≠ [] → p.kind = .file)) previous records) :
    ∀ {d : SnapshotDecoder σ}, At s l (records.flatMap recordBytes ++ out) d →
      wp (restoreRecords v previous) (fun r d' => r = records ∧ At s l out d') (Broken s) d := by
  induction hfit with
  | nil => exact fun hd => ⟨rfl, hd⟩
  | @cons p r previous records hr _ ih =>
    intro d hd
    rw [flatMap_cons, append_assoc] at hd
    refine wp_seq (wp_restoreRecord h hr.1 hr.2 hd) ?_
    rintro _ d1 ⟨rfl, hd1⟩
    refine wp_seq (ih hd1) ?_
    rintro _ d2 ⟨rfl, hd2⟩
    exact ⟨rfl, hd2⟩

lemma wp_finish (hd : At s l [] d) : wp (finish v) (fun _ d' => d' = d) (Broken s) d := by
  obtain ⟨-, hdrop⟩ := hd.yields.of_nil
  have hend := drop_eq_nil_iff.mp hdrop
  have hcons := hd.consumed
  refine wp_seq (wp_next_end hd) ?_
  rintro _ d1 ⟨rfl, rfl⟩
  rw [wp_bind, wp_get, wp_guard]
  refine ⟨fun _ => rfl, fun hg => ?_⟩
  have hout := hd.output
  rw [length_nil, add_zero] at hout
  simp only [Option.isSome_none, hd.encodedLength, show d1.consumed = l.length by omega, hout, bne_self_eq_false,
    Bool.or_self, Bool.not_false, Bool.true_eq_false] at hg

/-- The two lengths in front of an encoded snapshot are accepted. -/
theorem wp_start {objects : ObjectNamespace} {packages : PackageCatalog} (h : Stores s v (encodedSnapshot objects packages))
    (hblocks : v.root.metadataBlocks ≤ storageSnapshotMaxBlocks) :
    wp (start v) (fun _ => At s (encodedSnapshot objects packages) (snapshotString objects packages.encodeSnapshot))
      (Broken s) (atStart s) := by
  have hlen := length_encodedSnapshot objects packages
  have hsize := h.size
  set runs := encodeRuns 255 (snapshotString objects packages.encodeSnapshot) with hruns
  have hcode : encodedSnapshot objects packages =
      leBytes 4 storageSnapshotBytes ++ (leBytes 4 (encodedSnapshot objects packages).length ++ runs) := by
    rw [hlen, ← append_assoc]
    rfl
  have hmax : v.root.metadataBlocks ≤ 10 := hblocks
  have hzero : SnapshotReader.At s (encodedSnapshot objects packages) 0 (atStart s).reader :=
    ⟨.refl _ _, by rw [atStart, zero_mul]; rfl, le_refl _, fun h => absurd h (lt_irrefl 0)⟩
  refine wp_guard_seq (fun hg => ?_) fun _ => ?_
  · simp only [metadataBlocks_eq, Bool.not_eq_false', Bool.or_eq_true, beq_iff_eq, decide_eq_true_eq] at hg
    omega
  rw [wp_bind, onReader, wp_zoom]
  refine wp_mono (SnapshotReader.wp_readBytes h 8 hzero (by omega)) ?_ (fun _ _ he => he)
  rintro header r1 ⟨rfl, hr1⟩
  have hheader : ((encodedSnapshot objects packages).drop 0).take 8 =
      leBytes 4 storageSnapshotBytes ++ leBytes 4 (encodedSnapshot objects packages).length := by
    nth_rewrite 1 [hcode]
    rw [← append_assoc]
    exact take_left' (by simp)
  have hfirst : getLe (leBytes 4 storageSnapshotBytes ++ leBytes 4 (encodedSnapshot objects packages).length) 0 4 =
      storageSnapshotBytes := by
    rw [getLe, slice, drop_zero, take_left' (by simp), leVal_leBytes_of_lt (by decide)]
  have hsecond : getLe (leBytes 4 storageSnapshotBytes ++ leBytes 4 (encodedSnapshot objects packages).length) 4 4 =
      (encodedSnapshot objects packages).length := by
    rw [getLe, slice, drop_left' (by simp), take_of_length_le (by simp), leVal_leBytes_of_lt (by omega)]
  rw [hheader, hfirst, hsecond]
  refine wp_guard_seq (fun hg => ?_) fun _ => ?_
  · simp only [Bool.not_eq_false', Bool.or_eq_true, bne_self_eq_false, Bool.false_eq_true, false_or,
      decide_eq_true_eq] at hg
    rcases hg with hg | hg
    · omega
    · have hg' : v.root.metadataBlocks * 4096 < (encodedSnapshot objects packages).length := hg
      omega
  refine ⟨hr1, rfl, by dsimp only; omega, ?_, ?_⟩
  · have hdrop : (encodedSnapshot objects packages).drop 8 = runs := by
      exact drop_left' (by simp)
    exact yields_encodeRuns (by omega) _
  · show 0 + _ = _
    rw [zero_add]
    exact length_snapshotString objects (length_encodeSnapshot packages)

end SnapshotDecoder

/-! ## The snapshot as a whole -/

/-- The records of the namespace fit the format, and the root, whose slot is made for a directory, has no extents. -/
structure ObjectNamespace.Fits (ns : ObjectNamespace) : Prop where
  record : ∀ r ∈ ns.records.toList, r.Fits
  root : (ns.records.get 0).extents = []

/-- What the decoder makes of a package snapshot next to these records. -/
def acceptPackages (v : SystemCatalogVolume) (objects : ObjectNamespace) (packages : List UInt8) :
    Except NamespaceError PackageCatalog :=
  match PackageCatalog.restoreSnapshot packages (some v.packageArena) with
  | .error e => .error (.package e)
  | .ok packages => do
    objects.checkPackages packages.usedExtents
    .ok packages

/-- What the decoder makes of a snapshot with these records and this package snapshot. -/
def acceptSnapshot (v : SystemCatalogVolume) (objects : ObjectNamespace) (packages : List UInt8) :
    Except NamespaceError PackageCatalog := do
  objects.checkRoot
  (objects.records.toList.zipIdx.drop 1).forM fun (record, index) => objects.checkObject index record
  objects.records.toList.zipIdx.forM fun (record, index) => objects.checkFile v.userArena index record
  acceptPackages v objects packages

lemma ObjectNamespace.ofRecords_toList (ns : ObjectNamespace) : ofRecords ns.records.toList = ns := by
  rw [ofRecords]
  congr 1
  refine Vector.ext fun i hi => ?_
  rw [Vector.getElem_ofFn, getD_eq_getElem _ _ (by simpa using hi)]
  exact Vector.getElem_toList _

lemma ObjectNamespace.Fits.forall₂ {ns : ObjectNamespace} (h : ns.Fits) :
    Forall₂ (fun p r => r.Fits ∧ (r.extents ≠ [] → p.kind = .file)) ObjectNamespace.new.records.toList
      ns.records.toList := by
  refine forall₂_iff_get.mpr ⟨by simp, fun i hi hi' => ⟨h.record _ (get_mem _ _), fun hne => ?_⟩⟩
  match i with
  | 0 => exact absurd h.root hne
  | 1 | 2 | 3 => rfl

variable {objects : ObjectNamespace} {packages : PackageCatalog}

/-- The metadata blocks of the volume hold the snapshot of these tables. -/
structure Snapshotted (s : σ) (v : SystemCatalogVolume) (objects : ObjectNamespace) (packages : PackageCatalog) : Prop where
  stores : Stores s v (encodedSnapshot objects packages)
  blocks : v.root.metadataBlocks ≤ storageSnapshotMaxBlocks

/-- Why decoding a snapshot fails: an I/O error, or what was found is not accepted. -/
def Rejected (s : σ) (v : SystemCatalogVolume) (objects : ObjectNamespace) (packages : PackageCatalog) (e : NamespaceError) :
    Prop :=
  ((∃ b, e = .block b) ∧ ¬ Healthy s) ∨ acceptSnapshot v objects packages.encodeSnapshot = .error e

lemma wp_decodeSnapshot (h : Snapshotted s v objects packages) (hfit : objects.Fits) :
    wp (decodeSnapshot v .new)
      (fun r d => r.1 = objects ∧ acceptSnapshot v objects packages.encodeSnapshot = .ok r.2 ∧ Evolves noWrite s d.reader.store)
      (fun e d => Rejected s v objects packages e ∧ Evolves noWrite s d.reader.store) (atStart s) := by
  have hbroken : ∀ e d, Broken s e d → Rejected s v objects packages e ∧ Evolves noWrite s d.reader.store :=
    fun e d hb => ⟨.inl hb.2, hb.1⟩
  refine wp_step (wp_start h.stores h.blocks) (fun _ d1 hd1 => ?_) hbroken
  refine wp_step (wp_restoreRecords h.stores hfit.forall₂ hd1) ?_ hbroken
  rintro _ d2 ⟨rfl, hd2⟩
  rw [ObjectNamespace.ofRecords_toList, wp_bind, wp_lift]
  have hframe2 := hd2.reader.frame
  refine ⟨fun _ hroot => ?_, fun e he => ⟨.inr (by rw [acceptSnapshot, he]; rfl), hframe2⟩⟩
  rw [wp_bind, wp_lift]
  refine ⟨fun _ hobjects => ?_, fun e he => ⟨.inr (by rw [acceptSnapshot, hroot, he]; rfl), hframe2⟩⟩
  rw [wp_bind, wp_lift, dataArena_eq]
  refine ⟨fun _ hfiles => ?_, fun e he => ⟨.inr (by rw [acceptSnapshot, hroot, hobjects, he]; rfl), hframe2⟩⟩
  rw [wp_bind]
  have hd2' : At s (encodedSnapshot objects packages) (packages.encodeSnapshot ++ []) d2 := by
    rwa [append_nil]
  refine wp_mono (wp_readExact h.stores _ (length_encodeSnapshot packages) hd2') ?_ hbroken
  rintro _ d3 ⟨rfl, hd3⟩
  refine wp_step (wp_finish hd3) ?_ hbroken
  rintro _ _ rfl
  have hframe3 := hd3.reader.frame
  have haccept : acceptSnapshot v objects packages.encodeSnapshot = acceptPackages v objects packages.encodeSnapshot := by
    rw [acceptSnapshot, hroot, hobjects, hfiles]
    rfl
  rw [wp_bind, wp_mapErr, wp_lift]
  refine ⟨fun restored hrestored => ?_, fun e he => ⟨.inr ?_, hframe3⟩⟩
  swap
  · have he' : PackageCatalog.restoreSnapshot packages.encodeSnapshot (some v.packageArena) = .error e := he
    rw [haccept, acceptPackages, he']
  have hrestored' : PackageCatalog.restoreSnapshot packages.encodeSnapshot (some v.packageArena) = .ok restored := hrestored
  rw [acceptPackages, hrestored'] at haccept
  rw [wp_bind, wp_lift]
  refine ⟨fun _ hapart => ⟨rfl, ?_, hframe3⟩, fun e he => ⟨.inr ?_, hframe3⟩⟩
  · rw [haccept]
    dsimp only
    rw [hapart]
    rfl
  · rw [haccept]
    dsimp only
    rw [he]
    rfl

/-- An encoded snapshot does not look like a blank block. -/
theorem not_blank : ((slice (chunkBlock (encodedSnapshot objects packages) 0).toList 0 8).all fun b => b == 0) = false := by
  rw [all_eq_false]
  refine ⟨138, ?_, by decide⟩
  have hbyte : (chunkBlock (encodedSnapshot objects packages) 0).byteAt 0 = 138 := by
    rw [byteAt_chunkBlock _ _ _ (by omega)]
    rfl
  have hmem : (slice (chunkBlock (encodedSnapshot objects packages) 0).toList 0 8).getD 0 0 = 138 := by
    rw [getD_slice, if_pos (by omega)]
    exact hbyte
  rw [← hmem, getD_eq_getElem _ _ (by rw [length_slice, Vector.length_toList]; decide)]
  exact getElem_mem _

/-- **Reading a snapshot back.**  The tables that were stored are found again, if the checks accept them. -/
theorem wp_restoreSnapshotFromStore (h : Snapshotted s v objects packages) (hfit : objects.Fits) :
    wp (restoreSnapshotFromStore v .new .new)
      (fun r s' => r.1 = objects ∧ acceptSnapshot v objects packages.encodeSnapshot = .ok r.2 ∧ Evolves noWrite s s')
      (fun e s' => Rejected s v objects packages e ∧ Evolves noWrite s s') s := by
  have hpos : 0 < v.root.metadataBlocks := by
    have h1 := h.stores.size
    have h2 := length_encodedSnapshot objects packages
    omega
  have hdecode : ∀ {s'}, Evolves noWrite s s' → wp (Op.zoom atStart (fun _ d => d.reader.store) (decodeSnapshot v .new))
      (fun r s' => r.1 = objects ∧ acceptSnapshot v objects packages.encodeSnapshot = .ok r.2 ∧ Evolves noWrite s s')
      (fun e s' => Rejected s v objects packages e ∧ Evolves noWrite s s') s' := by
    intro s' he
    have hst := h.stores
    have h' : Snapshotted s' v objects packages :=
      ⟨⟨he.inv hst.inv, fun k hk => by rw [he.view_eq_of_noWrite]; exact hst.holds k hk,
        fun k hk => he.faithful _ (hst.faithful k hk), by rw [he.count]; exact hst.inside, hst.size⟩, h.blocks⟩
    rw [wp_zoom]
    refine wp_mono (wp_decodeSnapshot h' hfit) (fun r d hr => ⟨hr.1, hr.2.1, he.trans hr.2.2⟩) ?_
    rintro e d ⟨hrej | hrej, he'⟩
    · exact ⟨.inl ⟨hrej.1, fun hh => hrej.2 (he.healthy hh)⟩, he.trans he'⟩
    · exact ⟨.inr hrej, he.trans he'⟩
  unfold restoreSnapshotFromStore metadataBlank
  rw [metadataBlocks_eq, if_neg (by omega), wp_bind]
  by_cases hone : v.root.metadataBlocks = 1
  · rw [if_pos hone, wp_bind]
    refine wp_mono (wp_readMetadataBlock h.stores (.refl _ _) hpos) ?_ (fun e s' he => ⟨.inl he.2, he.1⟩)
    rintro _ s' ⟨rfl, he⟩
    rw [not_blank]
    exact hdecode he
  · rw [if_neg hone]
    exact hdecode (.refl _ _)

end LogOS.StorageService
