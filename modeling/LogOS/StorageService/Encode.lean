import LogOS.Lib.RunLength
import LogOS.Storage.Catalog.Transaction
import LogOS.StorageService.Snapshot

/-!
# What the encoder writes

`snapshotString` is the byte string of a snapshot, written down in one piece.  The source of the encoder yields it byte by
byte (`SnapshotSource.rest` is what is still to come), the two loops over it cut it into the runs of `encodeRuns`, and the
writer spreads them over the blocks of an extent: `SnapshotWriter.At l` says that exactly `l` was pushed so far.
-/

namespace LogOS.StorageService

open Lib Storage Storage.Catalog Op SnapshotSource SnapshotWriter SystemCatalogVolume List

/-! ## The string -/

/-- The extents of a record, in eight places. -/
def extentBytes (extents : List CowExtent) : List UInt8 :=
  (List.range maxFileExtents).flatMap fun index => encodeExtent (extents.getD index ⟨0, 0⟩)

/-- What is stored for a record. -/
def recordBytes (record : ObjectRecord) : List UInt8 :=
  leBytes 4 record.generation ++ leBytes 2 record.parent.slot ++ leBytes 4 record.parent.generation ++
    [record.kind.toByte] ++ [if record.alive then 1 else 0] ++ leBytes 2 record.nameLength ++ record.name.toList ++
    leBytes 4 record.length ++ [UInt8.ofNat record.extents.length] ++ extentBytes record.extents ++ record.data.toList

/-- What is stored for a snapshot. -/
def snapshotString (objects : ObjectNamespace) (packages : List UInt8) : List UInt8 :=
  objects.records.toList.flatMap recordBytes ++ packages

@[simp] lemma length_encodeExtent (extent : Extent) : (encodeExtent extent).length = 12 := by simp [encodeExtent]

@[simp] lemma length_extentBytes (extents : List CowExtent) : (extentBytes extents).length = 96 := by
  rfl

@[simp] lemma length_recordBytes (record : ObjectRecord) : (recordBytes record).length = 8562 := by
  simp [recordBytes]

lemma getD_extentBytes (extents : List CowExtent) {i : ℕ} (hi : i < 96) :
    (extentBytes extents).getD i 0 = (encodeExtent (extents.getD (i / 12) ⟨0, 0⟩)).getD (i % 12) 0 := by
  rw [extentBytes, getD_flatMap (by omega) 0 0 (fun _ _ => length_encodeExtent _)
    (by exact hi), getD_eq_getElem (range maxFileExtents) 0
    (by rw [length_range]; unfold maxFileExtents; omega), getElem_range]

lemma getD_append_length {a b : List UInt8} {n : ℕ} (ha : a.length = n) (i : ℕ) :
    (a ++ b).getD i 0 = if i < n then a.getD i 0 else b.getD (i - n) 0 := by
  split
  · exact getD_append _ _ _ _ (by omega)
  · rw [getD_append_right _ _ _ _ (by omega), ha]

/-- The encoder computes each byte of a record from its place. -/
theorem recordByte_eq (record : ObjectRecord) {i : ℕ} (hi : i < 8562) :
    recordByte record i = (recordBytes record).getD i 0 := by
  have hc : snapshotFixedBytes + 1 + maxFileExtents * extentWireBytes = 370 := rfl
  have hf : snapshotFixedBytes + 1 = 274 := rfl
  have hw : extentWireBytes = 12 := rfl
  rw [recordByte, recordBytes, hc, hf, hw]
  simp only [append_assoc]
  rw [getD_append_length (length_leBytes 4 _), getD_append_length (length_leBytes 2 _),
    getD_append_length (length_leBytes 4 _), getD_append_length (n := 1) rfl, getD_append_length (n := 1) rfl,
    getD_append_length (length_leBytes 2 _), getD_append_length record.name.length_toList,
    getD_append_length (length_leBytes 4 _), getD_append_length (n := 1) rfl,
    getD_append_length (length_extentBytes _)]
  simp only [Nat.sub_sub, Nat.reduceAdd]
  by_cases h1 : i < 4
  · rw [if_pos h1, if_pos h1]
  rw [if_neg h1, if_neg h1]
  by_cases h2 : i < 6
  · rw [if_pos h2, if_pos (show i - 4 < 2 by omega)]
  rw [if_neg h2, if_neg (show ¬ i - 4 < 2 by omega)]
  by_cases h3 : i < 10
  · rw [if_pos h3, if_pos (show i - 6 < 4 by omega)]
  rw [if_neg h3, if_neg (show ¬ i - 6 < 4 by omega)]
  by_cases h4 : i = 10
  · rw [if_pos h4, if_pos (show i - 10 < 1 by omega), h4]
    rfl
  rw [if_neg h4, if_neg (show ¬ i - 10 < 1 by omega)]
  by_cases h5 : i = 11
  · rw [if_pos h5, if_pos (show i - 11 < 1 by omega), h5]
    rfl
  rw [if_neg h5, if_neg (show ¬ i - 11 < 1 by omega)]
  by_cases h6 : i < 14
  · rw [if_pos h6, if_pos (show i - 12 < 2 by omega)]
  rw [if_neg h6, if_neg (show ¬ i - 12 < 2 by omega)]
  by_cases h7 : i < 269
  · rw [if_pos h7, if_pos (show i - 14 < 255 by omega), Bytes.getD_toList]
  rw [if_neg h7, if_neg (show ¬ i - 14 < 255 by omega)]
  by_cases h8 : i < 273
  · rw [if_pos h8, if_pos (show i - 269 < 4 by omega)]
  rw [if_neg h8, if_neg (show ¬ i - 269 < 4 by omega)]
  by_cases h9 : i = 273
  · rw [if_pos h9, if_pos (show i - 273 < 1 by omega), h9]
    rfl
  rw [if_neg h9, if_neg (show ¬ i - 273 < 1 by omega)]
  by_cases h10 : i < 370
  · rw [if_pos h10, if_pos (show i - 274 < 96 by omega), getD_extentBytes _ (by omega), encodeExtent,
      getD_append_length (length_leBytes 8 _)]
  · rw [if_neg h10, if_neg (show ¬ i - 274 < 96 by omega), Bytes.getD_toList]

lemma length_snapshotString (objects : ObjectNamespace) {packages : List UInt8}
    (hp : packages.length = packageSnapshotBytes) : (snapshotString objects packages).length = storageSnapshotBytes := by
  rw [snapshotString, length_append, length_flatMap_const fun _ _ => length_recordBytes _, Vector.length_toList, hp]
  rfl

/-! ## The source -/

namespace SnapshotSource

/-- What the source has still to yield. -/
def rest (source : SnapshotSource) : List UInt8 :=
  source.pending.toList ++ (snapshotString source.objects source.packages).drop source.offset

/-- The packages of the source have the size of a package snapshot. -/
def Sized (source : SnapshotSource) : Prop := source.packages.length = packageSnapshotBytes

variable {source : SnapshotSource}

lemma current_eq (source : SnapshotSource) :
    source.current = (snapshotString source.objects source.packages).getD source.offset 0 := by
  have hlen : (source.objects.records.toList.flatMap recordBytes).length = snapshotBytes := by
    rw [length_flatMap_const fun _ _ => length_recordBytes _, Vector.length_toList]
    rfl
  rw [current, snapshotString, getD_append_length hlen]
  split
  case isTrue hs =>
    rw [getD_flatMap (by omega) .empty 0 (fun _ _ => length_recordBytes _)
      (by rw [Vector.length_toList]; exact hs)]
    exact recordByte_eq _ (Nat.mod_lt _ (by unfold snapshotRecordBytes; omega))
  case isFalse => rfl

lemma rest_next (h : source.Sized) :
    source.next.1 = source.rest.head? ∧ source.next.2.rest = source.rest.tail ∧ source.next.2.pending = none ∧
      source.next.2.Sized := by
  have hl := length_snapshotString source.objects h
  obtain ⟨objects, packages, offset, pending⟩ := source
  cases pending with
  | some byte => exact ⟨rfl, rfl, rfl, h⟩
  | none =>
    unfold next
    dsimp only
    split
    case isTrue ho =>
      have hnil : (snapshotString objects packages).drop offset = [] := by
        rw [drop_eq_nil_iff]
        rw [hl]
        exact ho
      exact ⟨by simp [rest, hnil], by simp [rest, hnil], rfl, h⟩
    case isFalse ho =>
      have ho' : offset < (snapshotString objects packages).length := by rw [hl]; omega
      have hcons : (snapshotString objects packages).drop offset =
          (snapshotString objects packages).getD offset 0 :: (snapshotString objects packages).drop (offset + 1) := by
        rw [getD_eq_getElem _ _ ho']
        exact drop_eq_getElem_cons ho'
      have hcur := current_eq ⟨objects, packages, offset, none⟩
      exact ⟨by simp [rest, hcons, hcur], by simp [rest], rfl, h⟩

lemma rest_runLoop (zero : Bool) : ∀ (n : ℕ) {source : SnapshotSource}, source.Sized →
    (source.runLoop zero n).1 = (takeRun zero n source.rest).1 ∧
      (source.runLoop zero n).2.rest = (takeRun zero n source.rest).2 ∧ (source.runLoop zero n).2.Sized
  | 0, source, h => ⟨rfl, rfl, h⟩
  | n + 1, source, h => by
    obtain ⟨h1, h2, h3, h4⟩ := rest_next h
    unfold runLoop
    rcases hn : source.next with ⟨next, source'⟩
    rw [hn] at h1 h2 h3 h4
    cases hr : source.rest with
    | nil =>
      rw [hr] at h1 h2
      subst h1
      exact ⟨rfl, h2, h4⟩
    | cons b l =>
      rw [hr] at h1 h2
      subst h1
      simp only [takeRun, head?_cons]
      split
      case isTrue =>
        obtain ⟨i1, i2, i3⟩ := rest_runLoop zero n h4
        rw [h2] at i1 i2
        exact ⟨by rw [i1]; rfl, i2, i3⟩
      case isFalse =>
        refine ⟨rfl, ?_, h4⟩
        have h2' : source'.pending.toList ++ _ = l := h2
        rw [h3] at h2'
        show b :: ((snapshotString source'.objects source'.packages).drop source'.offset) = b :: l
        rw [← h2']
        rfl

lemma rest_run (h : source.Sized) (b : UInt8) :
    (source.run b).1 = b :: (takeRun (b == 0) 255 source.rest).1 ∧
      (source.run b).2.rest = (takeRun (b == 0) 255 source.rest).2 ∧ (source.run b).2.Sized := by
  obtain ⟨h1, h2, h3⟩ := rest_runLoop (b == 0) 255 h
  exact ⟨by rw [run, h1], h2, h3⟩

end SnapshotSource

/-- The encoded length is that of the runs. -/
theorem lengthLoop_eq : ∀ (n : ℕ) {source : SnapshotSource} {l : List UInt8} (length : ℕ), source.Sized →
    source.rest = l → l.length ≤ n →
    lengthLoop n source.next.1 source.next.2 length = length + (encodeRuns 255 l).length
  | n, source, [], length, h, hr, _ => by
    obtain ⟨h1, -⟩ := rest_next h
    rw [h1, hr, encodeRuns_nil]
    cases n <;> rfl
  | n + 1, source, b :: l, length, h, hr, hn => by
    obtain ⟨h1, h2, -, h4⟩ := rest_next h
    obtain ⟨i1, i2, i3⟩ := rest_run h4 b
    rw [hr] at h1 h2
    rw [h2, tail_cons] at i1 i2
    have hle := length_takeRun_rest (b == 0) 255 l
    rw [h1, head?_cons, lengthLoop, lengthLoop_eq n _ i3 i2 (by simp at hn; omega), encodeRuns_cons,
      length_append, length_encodeRun, i1]
    by_cases hb : b = 0
    · simp only [hb, beq_self_eq_true, if_true]
      omega
    · simp only [beq_iff_eq, length_cons]
      omega

/-! ## The writer -/

/-- A block of a string is not changed by what is appended behind it. -/
theorem chunkBlock_append {l l' : List UInt8} {k : ℕ} (h : k * 4096 + 4096 ≤ l.length) :
    chunkBlock (l ++ l') k = chunkBlock l k := by
  refine Bytes.ext_byteAt fun i hi => ?_
  rw [byteAt_chunkBlock _ _ _ hi, byteAt_chunkBlock _ _ _ hi]
  exact getD_append _ _ _ _ (by omega)

/-- The last block of a string takes one more byte. -/
theorem chunkBlock_push (l : List UInt8) (b : UInt8) :
    (chunkBlock l (l.length / 4096)).splice (l.length % 4096) [b] = chunkBlock (l ++ [b]) (l.length / 4096) := by
  refine Bytes.ext_byteAt fun i hi => ?_
  rw [Bytes.byteAt_splice _ _ _ _ (by rw [length_singleton]; omega), byteAt_chunkBlock _ _ _ hi,
    byteAt_chunkBlock _ _ _ hi, getD_append_length rfl, length_singleton]
  by_cases hlt : i < l.length % 4096
  · rw [if_neg (by omega), if_pos (by omega)]
  by_cases heq : i = l.length % 4096
  · rw [if_pos (by omega), if_neg (by omega)]
    congr 1
    omega
  · rw [if_neg (by omega), if_neg (by omega), getD_eq_default _ _ (by omega),
      getD_eq_default _ _ (by rw [length_singleton]; omega)]

lemma chunkBlock_of_length_le {l : List UInt8} {k : ℕ} (h : l.length ≤ k * 4096) : chunkBlock l k = Block.zero := by
  refine Bytes.ext_byteAt fun i hi => ?_
  have hz : l.getD (k * 4096 + i) 0 = 0 := getD_eq_default _ _ (le_trans h (Nat.le_add_right _ _))
  rw [byteAt_chunkBlock _ _ _ hi, hz, Block.zero, Bytes.byteAt_zeros]

variable {σ : Type} [BlockStore σ] [LawfulStore σ] {s : σ} {t : SystemCatalogTransaction} {extent : Extent}

namespace SnapshotWriter

/-- Exactly `l` was pushed into the writer since it was put on the store `s`. -/
structure At (s : σ) (extent : Extent) (l : List UInt8) (w : SnapshotWriter σ) : Prop where
  frame : Evolves (extentWrites extent) s w.store
  total : w.total = l.length
  blockNumber : w.blockNumber = l.length / 4096
  offset : w.offset = l.length % 4096
  block : w.block = chunkBlock l (l.length / 4096)
  done : HoldsChunks w.store extent.start w.blockNumber l

/-- The extent may be written: it belongs to the transaction and to the store. -/
structure Writable (s : σ) (t : SystemCatalogTransaction) (extent : Extent) : Prop where
  inv : StoreModel.Inv s
  owned : ∀ i, extent.Covers i → t.Owns i
  inside : extent.start + extent.blocks ≤ blockCount s

/-- The writer stopped at an I/O error. -/
def Broken (s : σ) (extent : Extent) (e : NamespaceError) (w : SnapshotWriter σ) : Prop :=
  Evolves (extentWrites extent) s w.store ∧ (∃ b, e = .block b) ∧ ¬ Healthy s

variable {l : List UInt8} {w : SnapshotWriter σ}

section

variable (hw : Writable s t extent)
include hw

/-- The block that is being filled goes to its place. -/
theorem wp_flushBlock (hframe : Evolves (extentWrites extent) s w.store) (hroom : w.blockNumber < extent.blocks) :
    wp (flushBlock t extent)
      (fun _ w' => w' = ⟨w'.store, Block.zero, w.blockNumber + 1, 0, w.total⟩ ∧
        Evolves (extentWrites extent) s w'.store ∧ Evolves (oneWrite (extent.start + w.blockNumber) w.block) w.store w'.store ∧
        view w'.store (extent.start + w.blockNumber) = w.block) (Broken s extent) w := by
  have hcov : extent.Covers (extent.start + w.blockNumber) := ⟨by omega, by omega⟩
  unfold flushBlock
  rw [wp_bind, wp_get, wp_bind, wp_zoom, wp_mapErr]
  refine wp_mono (wp_txnWriteBlock (hframe.inv hw.inv) fun _ => ?_) ?_ ?_
  · rw [hframe.count]
    have := hw.inside
    omega
  · rintro _ s' ⟨-, he, hv⟩
    refine ⟨rfl, hframe.trans (he.mono ?_), he, hv⟩
    rintro j c ⟨rfl, -⟩
    exact hcov
  · rintro e s' ⟨he, ⟨-, hno⟩ | ⟨-, ⟨b, rfl⟩, hh⟩⟩
    · exact (hno (hw.owned _ hcov)).elim
    · exact ⟨hframe.trans (he.of_noWrite _), ⟨b, rfl⟩, fun h => hh (hframe.healthy h)⟩

/-- **One byte.** -/
theorem wp_push (h : At s extent l w) (b : UInt8) (hroom : l.length < extent.blocks * 4096) :
    wp (push t extent b) (fun _ => At s extent (l ++ [b])) (Broken s extent) w := by
  have hbn := h.blockNumber
  have hoff := h.offset
  have hlast : w.blockNumber < extent.blocks := by omega
  have hlen : (l ++ [b]).length = l.length + 1 := by simp
  have hblock : w.block.splice w.offset [b] = chunkBlock (l ++ [b]) (l.length / 4096) := by
    rw [h.block, hoff]
    exact chunkBlock_push l b
  have hdone : ∀ k < w.blockNumber, view w.store (extent.start + k) = chunkBlock (l ++ [b]) k := fun k hk => by
    rw [chunkBlock_append (by omega)]
    exact h.done k hk
  unfold push
  refine wp_guard_seq (fun hg => absurd hlast (by simpa using hg)) fun _ => ?_
  rw [wp_bind, wp_modify, wp_ite]
  refine ⟨fun hfull => ?_, fun hfull => ?_⟩
  · -- the block is full
    refine wp_mono (wp_flushBlock hw h.frame hlast) ?_ (fun _ _ h => h)
    rintro _ w' ⟨hw', hframe, he, hv⟩
    dsimp only at hw' he hv
    have hfull' : w.offset + 1 = 4096 := hfull
    have hnext : (l ++ [b]).length / 4096 = w.blockNumber + 1 := by omega
    have hzero : (l ++ [b]).length % 4096 = 0 := by omega
    refine ⟨hframe, by rw [hw', hlen, ← h.total], by rw [hw', hnext], by rw [hw', hzero], ?_, fun k hk => ?_⟩
    · rw [hw', chunkBlock_of_length_le (by omega)]
    rw [hw'] at hk
    dsimp only at hk
    by_cases hk' : k = w.blockNumber
    · rw [hk', hv, hblock, hbn]
    · rw [he.view_eq (by rintro c ⟨hc, -⟩; omega)]
      exact hdone k (by omega)
  · have hfull' : w.offset + 1 ≠ 4096 := hfull
    have hsame : (l ++ [b]).length / 4096 = l.length / 4096 := by omega
    have hnext : (l ++ [b]).length % 4096 = w.offset + 1 := by omega
    exact ⟨h.frame, by rw [hlen, ← h.total], by rw [hsame, ← hbn], hnext.symm, by rw [hsame, ← hblock], hdone⟩

lemma wp_pushBytes (h : At s extent l w) (bytes : List UInt8) (hroom : l.length + bytes.length ≤ extent.blocks * 4096) :
    wp (pushBytes t extent bytes) (fun _ => At s extent (l ++ bytes)) (Broken s extent) w := by
  refine wp_forEach (fun done => At s extent (l ++ done)) (fun done b rest w' hsplit h' => ?_) (by simpa using h)
  have hlen := congrArg length hsplit
  rw [length_append, length_cons] at hlen
  rw [← append_assoc]
  exact wp_push hw h' b (by rw [length_append]; omega)

/-- The runs of a string, one after the other. -/
theorem wp_writeLoop : ∀ (n : ℕ) {source : SnapshotSource} {l r : List UInt8}
    {w : SnapshotWriter σ}, source.Sized → source.rest = r → r.length ≤ n → At s extent l w →
    l.length + (encodeRuns 255 r).length ≤ extent.blocks * 4096 →
    wp (writeLoop t extent n source.next.1 source.next.2) (fun _ => At s extent (l ++ encodeRuns 255 r))
      (Broken s extent) w
  | n, source, l, [], w, h, hr, _, hat, _ => by
    obtain ⟨h1, -⟩ := rest_next h
    rw [h1, hr, encodeRuns_nil, append_nil]
    cases n <;> exact hat
  | n + 1, source, l, b :: r, w, h, hr, hn, hat, hroom => by
    obtain ⟨h1, h2, -, h4⟩ := rest_next h
    obtain ⟨i1, i2, i3⟩ := rest_run h4 b
    rw [hr] at h1 h2
    rw [h2, tail_cons] at i1 i2
    have hle := length_takeRun_rest (b == 0) 255 r
    rw [encodeRuns_cons] at hroom ⊢
    rw [h1, head?_cons, writeLoop, i1]
    rw [length_append] at hroom
    set run := (takeRun (b == 0) 255 r).1 with hrun
    -- the run as it is pushed: the flag, the length, and the bytes unless they are zero
    have hcode : encodeRun (b :: run) =
        [if b == 0 then 0 else 1] ++ leBytes 2 (b :: run).length ++ (if b == 0 then [] else b :: run) := by
      unfold encodeRun
      by_cases hb : b = 0 <;> simp [hb]
    have hsize := congrArg length hcode
    simp only [length_append, length_singleton, length_leBytes] at hsize
    refine wp_seq (wp_push hw hat _ (by omega)) (fun _ w1 hat1 => ?_)
    refine wp_seq (wp_pushBytes hw hat1 _ ?_) (fun _ w2 hat2 => ?_)
    · simp only [length_append, length_singleton, length_leBytes]
      omega
    have hrest : ∀ w3, At s extent (l ++ encodeRun (b :: run)) w3 →
        wp (writeLoop t extent n (source.next.2.run b).2.next.1 (source.next.2.run b).2.next.2)
          (fun _ => At s extent (l ++ (encodeRun (b :: run) ++ encodeRuns 255 (takeRun (b == 0) 255 r).2)))
          (Broken s extent) w3 := by
      intro w3 hat3
      rw [← append_assoc]
      exact wp_writeLoop n i3 i2 (by simp at hn; omega) hat3 (by rw [length_append]; omega)
    by_cases hb : b = 0
    · simp only [hb, beq_self_eq_true, if_true] at hat2 hrest hcode ⊢
      refine hrest w2 ?_
      rw [hcode]
      simpa using hat2
    · have hb' : (b == 0) = false := by simpa using hb
      simp only [hb', Bool.false_eq_true, if_false] at hat2 hrest hcode hsize ⊢
      refine wp_seq (wp_pushBytes hw hat2 _ ?_) (fun _ w3 hat3 => hrest w3 ?_)
      · simp only [length_append, length_singleton, length_leBytes]
        omega
      · rw [hcode]
        simpa using hat3

/-- The last block goes to its place; the extent holds the string. -/
theorem wp_finish (h : At s extent l w) (hfull : blocksFor l.length = extent.blocks) :
    wp (finish t extent)
      (fun total w' => total = l.length ∧ Evolves (extentWrites extent) s w'.store ∧
        HoldsChunks w'.store extent.start extent.blocks l) (Broken s extent) w := by
  have hbn := h.blockNumber
  have hoff := h.offset
  unfold blocksFor blockBytes at hfull
  unfold finish
  rw [wp_bind, wp_get]
  by_cases hz : w.offset = 0
  · rw [if_neg (by simpa using hz)]
    refine ⟨h.total, h.frame, ?_⟩
    rw [show extent.blocks = w.blockNumber by omega]
    exact h.done
  · rw [if_pos hz]
    refine wp_seq (wp_flushBlock hw h.frame (by omega)) ?_
    rintro _ w' ⟨-, hframe, he, hv⟩
    refine ⟨h.total, hframe, fun k hk => ?_⟩
    by_cases hk' : k = w.blockNumber
    · rw [hk', hv, h.block, hbn]
    · rw [he.view_eq (by rintro c ⟨hc, -⟩; omega)]
      exact h.done k (by omega)

end

end SnapshotWriter

/-! ## The snapshot as it is stored -/

lemma length_encodeSnapshot (packages : PackageCatalog) : packages.encodeSnapshot.length = packageSnapshotBytes := by
  rw [PackageCatalog.encodeSnapshot, length_cons, length_cons,
    length_flatMap_const fun record _ => (encodeRecord record).length_toList, Vector.length_toList]
  rfl

/-- The snapshot of a namespace and a package catalog: two lengths, and the runs of the string. -/
def encodedSnapshot (objects : ObjectNamespace) (packages : PackageCatalog) : List UInt8 :=
  let runs := encodeRuns 255 (snapshotString objects packages.encodeSnapshot)
  leBytes 4 storageSnapshotBytes ++ leBytes 4 (8 + runs.length) ++ runs

section Stored

variable (objects : ObjectNamespace) (packages : PackageCatalog)

lemma length_encodedSnapshot : (encodedSnapshot objects packages).length =
    8 + (encodeRuns 255 (snapshotString objects packages.encodeSnapshot)).length := by
  simp only [encodedSnapshot, length_append, length_leBytes]

lemma rest_new : (new objects packages.encodeSnapshot).rest = snapshotString objects packages.encodeSnapshot :=
  rfl

/-- **The length that the encoder announces** is the length of what it writes. -/
theorem encodedSnapshotLength_new :
    encodedSnapshotLength (.new objects packages.encodeSnapshot) = (encodedSnapshot objects packages).length := by
  have hsized : (new objects packages.encodeSnapshot).Sized := length_encodeSnapshot packages
  rw [length_encodedSnapshot]
  refine lengthLoop_eq _ _ hsized rfl ?_
  exact le_of_eq (length_snapshotString objects (length_encodeSnapshot packages))

/-- **`write_snapshot_stream`** leaves the encoded snapshot in the blocks of the extent. -/
theorem wp_writeSnapshotStream (hw : Writable s t extent)
    (hblocks : extent.blocks = blocksFor (encodedSnapshot objects packages).length) :
    wp (writeSnapshotStream t extent (.new objects packages.encodeSnapshot) (encodedSnapshot objects packages).length)
      (fun _ s' => Evolves (extentWrites extent) s s' ∧
        HoldsChunks s' extent.start extent.blocks (encodedSnapshot objects packages))
      (fun e s' => Evolves (extentWrites extent) s s' ∧ (∃ b, e = .block b) ∧ ¬ Healthy s) s := by
  have hsized : (new objects packages.encodeSnapshot).Sized := length_encodeSnapshot packages
  have hlen := length_encodedSnapshot objects packages
  have hroom : (encodedSnapshot objects packages).length ≤ extent.blocks * 4096 := by
    rw [hblocks]
    unfold blocksFor blockBytes
    omega
  have hstart : At s extent [] ⟨s, Block.zero, 0, 0, 0⟩ :=
    ⟨.refl _ _, rfl, rfl, rfl, (chunkBlock_of_length_le (Nat.zero_le _)).symm, fun k hk => absurd hk (Nat.not_lt_zero k)⟩
  unfold writeSnapshotStream
  rw [wp_zoom]
  refine wp_seq (wp_pushBytes hw hstart _ ?_) (fun _ w1 h1 => ?_)
  · simp only [length_nil, length_leBytes]
    omega
  refine wp_seq (wp_pushBytes hw h1 _ ?_) (fun _ w2 h2 => ?_)
  · simp only [length_append, length_nil, length_leBytes]
    omega
  refine wp_seq (wp_writeLoop hw storageSnapshotBytes hsized (rest_new objects packages) ?_ h2 ?_) (fun _ w3 h3 => ?_)
  · exact Nat.le_of_eq (length_snapshotString objects (length_encodeSnapshot packages))
  · simp only [length_append, length_nil, length_leBytes]
    omega
  have h3' : At s extent (encodedSnapshot objects packages) w3 := by
    have hcode : [] ++ leBytes 4 storageSnapshotBytes ++ leBytes 4 (encodedSnapshot objects packages).length ++
        encodeRuns 255 (snapshotString objects packages.encodeSnapshot) = encodedSnapshot objects packages := by
      rw [hlen]
      rfl
    rwa [hcode] at h3
  refine wp_seq (wp_finish hw h3' hblocks.symm) ?_
  rintro total w4 ⟨rfl, hframe, hdone⟩
  rw [wp_guard]
  exact ⟨fun _ => ⟨hframe, hdone⟩, fun hne => absurd hne (by simp)⟩

end Stored

end LogOS.StorageService
