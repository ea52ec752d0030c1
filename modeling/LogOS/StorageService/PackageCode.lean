import LogOS.StorageService.Encode
import LogOS.StorageService.Layout

/-!
# The package snapshot and back

The record of an installed package is 156 bytes at fixed places; a snapshot is sixteen of them behind two bytes.  The
decoder looks at the rest of the whole snapshot when it meets a slot that is not in use, so the records that are alive have
to come first, and in a catalog that was built by installing packages they do.
-/

namespace LogOS.StorageService

open Lib Abi Storage Storage.Catalog Package Bytes PackageRecord List

/-! ## Reading at the front of a longer string -/

variable {lo w : ℕ}

lemma slice_append_left {α : Type} {a : List α} (b : List α) {hi : ℕ} (h : hi ≤ a.length) :
    slice (a ++ b) lo hi = slice a lo hi := by
  unfold slice
  by_cases hlo : lo ≤ a.length
  · rw [drop_append_of_le_length hlo, take_append_of_le_length (by rw [length_drop]; omega)]
  · rw [show hi - lo = 0 by omega, take_zero, take_zero]

lemma getLe_append_left {a : List UInt8} (b : List UInt8) {off : ℕ} (h : off + w ≤ a.length) :
    getLe (a ++ b) off w = getLe a off w := by
  rw [getLe, slice_append_left b h, getLe]

/-! ## A record -/

variable {i : ℕ}

/-- What the decoder demands of a live record, and what its fields can hold. -/
structure PackageRecord.Coded (r : PackageRecord) : Prop where
  alive : r.alive = true
  generation : r.generation ≠ 0 ∧ r.generation < 2 ^ 32
  version : r.packageVersion < 2 ^ 32
  bytes : packageHeaderBytes ≤ r.bytes ∧ r.bytes ≤ maxPackageBytesV2
  crc : r.crc32c < 2 ^ 32
  count : r.extents.length ≤ maxPackageExtents
  extents : ∀ e ∈ r.extents, e.start < 2 ^ 64 ∧ 0 < e.blocks ∧ e.blocks < 2 ^ 32

section Splice

variable {n : ℕ} (b : Bytes n) (off : ℕ) (src : List UInt8)

lemma byteAt_splice_of_disjoint (h : off + src.length ≤ n) (hd : i < off ∨ off + src.length ≤ i) :
    (b.splice off src).byteAt i = b.byteAt i := by
  rw [byteAt_splice _ _ _ _ h, if_neg (by omega)]

lemma getLe_splice_of_disjoint (h : off + src.length ≤ n) (hd : lo + w ≤ off ∨ off + src.length ≤ lo) :
    getLe (b.splice off src).toList lo w = getLe b.toList lo w := by
  rw [getLe, slice_splice_of_disjoint _ _ _ _ _ h hd, getLe]

end Splice

section Record

variable {r : PackageRecord}

lemma length_flatMap_encodeExtent (l : List Extent) : (l.flatMap encodeExtent).length = l.length * 12 :=
  length_flatMap_const fun _ _ => length_encodeExtent _

/-- The part of a record in front of its extents. -/
def recordHead (r : PackageRecord) : Bytes 156 :=
  let output : Bytes 156 := (Bytes.zeros 156).splice 0 [if r.alive then 1 else 0]
  let output := if r.alive then encodeTarget r.target output else output
  let output := putLe output 40 4 r.generation
  let output := putLe output 44 4 r.packageVersion
  let output := putLe output 48 4 r.bytes
  let output := putLe output 52 4 r.crc32c
  output.splice 56 [UInt8.ofNat r.extents.length]

lemma encodeRecord_eq (r : PackageRecord) : encodeRecord r = (recordHead r).splice 60 (r.extents.flatMap encodeExtent) := rfl

section

variable (h : r.extents.length ≤ maxPackageExtents)
include h

lemma room_of_count : 60 + (r.extents.flatMap encodeExtent).length ≤ 156 := by
  unfold maxPackageExtents at h
  rw [length_flatMap_encodeExtent]
  omega

lemma byteAt_encodeRecord (hi : i < 60) : (encodeRecord r).byteAt i = (recordHead r).byteAt i :=
  byteAt_splice_of_disjoint _ _ _ (room_of_count h) (.inl hi)

lemma getLe_encodeRecord (hi : lo + w ≤ 60) : getLe (encodeRecord r).toList lo w = getLe (recordHead r).toList lo w :=
  getLe_splice_of_disjoint _ _ _ (room_of_count h) (.inl hi)

end

/-- The numbers of a record. -/
theorem getLe_recordHead (h : r.Coded) :
    getLe (recordHead r).toList 40 4 = r.generation ∧ getLe (recordHead r).toList 44 4 = r.packageVersion ∧
      getLe (recordHead r).toList 48 4 = r.bytes ∧ getLe (recordHead r).toList 52 4 = r.crc32c := by
  have hb : r.bytes < 256 ^ 4 := lt_of_le_of_lt h.bytes.2 (by decide)
  have hg : r.generation < 256 ^ 4 := h.generation.2
  have hv : r.packageVersion < 256 ^ 4 := h.version
  have hc : r.crc32c < 256 ^ 4 := h.crc
  unfold recordHead
  refine ⟨?_, ?_, ?_, ?_⟩ <;> rw [getLe_splice_of_disjoint _ _ _ (by simp) (by simp)] <;>
    simp (disch := omega) only [getLe_putLe_self, getLe_putLe_of_disjoint]

lemma byteAt_recordHead_count (r : PackageRecord) : (recordHead r).byteAt 56 = UInt8.ofNat r.extents.length := by
  rw [recordHead, byteAt_splice _ _ _ _ (by simp)]
  rfl

/-- In front of the numbers there are the first byte and the target. -/
theorem byteAt_recordHead (halive : r.alive = true) (hi : i < 40) :
    (recordHead r).byteAt i = (encodeTarget r.target ((zeros 156).splice 0 [1])).byteAt i := by
  unfold recordHead
  rw [byteAt_splice_of_disjoint _ _ _ (by simp) (.inl (by omega))]
  simp (disch := omega) only [byteAt_putLe_of_disjoint]
  rw [if_pos halive, if_pos halive]

/-- The target takes the bytes 1 to 35. -/
theorem byteAt_encodeTarget_of_le (target : PackageKey) (output : Bytes 156) (hi : 36 ≤ i) :
    (encodeTarget target output).byteAt i = output.byteAt i := by
  cases target with
  | service id => simp (disch := first | omega | simp <;> omega) only [encodeTarget, byteAt_splice_of_disjoint]
  | program name =>
    have hlen := name.length_le
    simp (disch := first | omega | simp <;> omega) only [encodeTarget, byteAt_splice_of_disjoint]

lemma byteAt_first (x : UInt8) (hi : 1 ≤ i) : ((zeros 156).splice 0 [x]).byteAt i = 0 := by
  rw [byteAt_splice_of_disjoint _ _ _ (by simp) (.inr (by simpa using hi)), byteAt_zeros]

/-- The bytes of the extents. -/
theorem byteAt_encodeRecord_extents (h : r.extents.length ≤ maxPackageExtents) (hi : 60 ≤ i) (hi' : i < 156) :
    (encodeRecord r).byteAt i = (r.extents.flatMap encodeExtent).getD (i - 60) 0 := by
  rw [encodeRecord_eq, byteAt_splice _ _ _ _ (room_of_count h)]
  split
  · rfl
  next hn =>
  rw [getD_eq_default _ _ (by omega)]
  unfold recordHead
  rw [byteAt_splice_of_disjoint _ _ _ (by simp) (.inr (by simp; omega))]
  simp (disch := omega) only [byteAt_putLe_of_disjoint]
  split
  · rw [byteAt_encodeTarget_of_le _ _ (by omega), byteAt_first _ (by omega)]
  · rw [byteAt_first _ (by omega)]

lemma slice_encodeRecord_head (hcount : r.extents.length ≤ maxPackageExtents) (halive : r.alive = true) {hi : ℕ}
    (h : hi ≤ 40) : slice (encodeRecord r).toList lo hi =
      slice (encodeTarget r.target ((zeros 156).splice 0 [1])).toList lo hi := by
  refine list_ext_getD (d := 0) (by simp) fun i hi' => ?_
  have hi' : i < hi - lo := by
    simp only [length_slice] at hi'
    omega
  rw [getD_slice, getD_slice, if_pos hi', if_pos hi', getD_toList, getD_toList,
    byteAt_encodeRecord hcount (by omega), byteAt_recordHead halive (by omega)]

/-- **The target is read back.** -/
theorem decodeTarget_encodeRecord (hcount : r.extents.length ≤ maxPackageExtents) (halive : r.alive = true)
    (rest : List UInt8) : decodeTarget ((encodeRecord r).toList ++ rest) = .ok r.target := by
  have hlen : (encodeRecord r).toList.length = 156 := Vector.length_toList
  have hbyte : ∀ i < 40, ((encodeRecord r).toList ++ rest).getD i 0 =
      (encodeTarget r.target ((zeros 156).splice 0 [1])).byteAt i := by
    intro i hi
    rw [getD_append _ _ _ _ (by omega), getD_toList, byteAt_encodeRecord hcount (by omega), byteAt_recordHead halive hi]
  unfold decodeTarget
  rw [hbyte 1 (by omega), hbyte 2 (by omega), hbyte 3 (by omega)]
  rcases htarget : r.target with service | name
  · simp [encodeTarget, byteAt_splice, ServiceId.ofByte_index, -UInt8.ofNat_add]
  have hn := name.length_le
  have hpos : name.bytes.length ≠ 0 := fun h => name.nonempty (length_eq_zero_iff.mp h)
  have h1 : (encodeTarget (.program name) ((zeros 156).splice 0 [1])).byteAt 1 = 2 := by
    simp (disch := first | omega | simp) [encodeTarget, byteAt_splice]
  have h3 : ((encodeTarget (.program name) ((zeros 156).splice 0 [1])).byteAt 3).toNat = name.bytes.length := by
    simp (disch := first | omega | simp) [encodeTarget, byteAt_splice]
    omega
  have hname : slice ((encodeRecord r).toList ++ rest) 4 (4 + name.bytes.length) = name.bytes := by
    rw [slice_append_left _ (by omega), slice_encodeRecord_head hcount halive (by omega), htarget, encodeTarget]
    exact slice_splice_self _ _ _ (by omega)
  have hpad : (slice ((encodeRecord r).toList ++ rest) (4 + name.bytes.length) 36).any (· != 0) = false := by
    rw [slice_append_left _ (by omega), slice_encodeRecord_head hcount halive (by omega), htarget, encodeTarget]
    simp (disch := first | omega | simp <;> omega) only [slice_splice_of_disjoint, any_eq_false]
    intro b hb
    have hb' := mem_of_mem_drop (mem_of_mem_take hb)
    simp only [zeros, Vector.toList_ofFn, mem_ofFn] at hb'
    obtain ⟨-, rfl⟩ := hb'
    decide
  rw [h1, if_neg (by decide), if_pos rfl]
  dsimp only
  rw [h3, hname, hpad, if_neg (by simp [hpos, maxPackageNameBytes, hn]), PackageName.parse_bytes]

lemma getD_flatMap_encodeExtent (l : List Extent) (i : ℕ) :
    (l.flatMap encodeExtent).getD i 0 = (encodeExtent (l.getD (i / 12) ⟨0, 0⟩)).getD (i % 12) 0 := by
  by_cases hi : i < l.length * 12
  · exact getD_flatMap (by omega) _ _ (fun _ _ => length_encodeExtent _) hi
  · rw [getD_eq_default _ _ (by rw [length_flatMap_encodeExtent]; omega), getD_eq_default l _ (by omega)]
    have hzero : encodeExtent ⟨0, 0⟩ = replicate 12 0 := by decide
    rw [hzero, getD_replicate _ (by omega)]

/-- An extent in its place. -/
theorem decodeExtent_encodeRecord (h : r.Coded) (rest : List UInt8) (hi : i < 8) :
    decodeExtent ((encodeRecord r).toList ++ rest) (60 + i * 12) = r.extents.getD i ⟨0, 0⟩ := by
  have hlen : (encodeRecord r).toList.length = 156 := Vector.length_toList
  have hbyte : ∀ k < 12, (encodeRecord r).byteAt (60 + i * 12 + k) = (encodeExtent (r.extents.getD i ⟨0, 0⟩)).getD k 0 := by
    intro k hk
    rw [byteAt_encodeRecord_extents h.count (by omega) (by omega), getD_flatMap_encodeExtent,
      show (60 + i * 12 + k - 60) / 12 = i by omega, show (60 + i * 12 + k - 60) % 12 = k by omega]
  have hbound : (r.extents.getD i ⟨0, 0⟩).start < 256 ^ 8 ∧ (r.extents.getD i ⟨0, 0⟩).blocks < 256 ^ 4 := by
    by_cases hl : i < r.extents.length
    · rw [getD_eq_getElem _ _ hl]
      have := h.extents _ (getElem_mem hl)
      exact ⟨this.1, this.2.2⟩
    · rw [getD_eq_default _ _ (by omega)]
      exact ⟨by decide, by decide⟩
  generalize r.extents.getD i ⟨0, 0⟩ = e at hbyte hbound
  have hfield : ∀ a w, a + w ≤ 12 →
      slice (encodeRecord r).toList (60 + i * 12 + a) (60 + i * 12 + a + w) = slice (encodeExtent e) a (a + w) := by
    intro a w ha
    refine list_ext_getD (d := 0) (by simp; omega) fun k hk => ?_
    have hk : k < w := by
      simp only [length_slice] at hk
      omega
    simp (disch := omega) only [getD_slice, if_pos, getD_toList, Nat.add_assoc, ← hbyte]
  rw [decodeExtent, getLe_append_left _ (by omega), getLe_append_left _ (by omega), getLe, getLe, hfield 8 4 (by omega),
    ← Nat.add_zero (60 + i * 12), hfield 0 8 (by omega)]
  simp [slice, encodeExtent, take_of_length_le, leVal_leBytes_of_lt hbound.1, leVal_leBytes_of_lt hbound.2]

/-- **The extents are read back.** -/
theorem decodeExtents_encodeRecord (h : r.Coded) (rest : List UInt8) :
    decodeExtents ((encodeRecord r).toList ++ rest) 60 12 r.extents.length = .ok r.extents := by
  have hcount : r.extents.length ≤ 8 := h.count
  have hall : ((range maxPackageExtents).map fun index =>
      decodeExtent ((encodeRecord r).toList ++ rest) (60 + index * 12)) =
      (range 8).map fun index => r.extents.getD index ⟨0, 0⟩ :=
    map_congr_left fun i hi => decodeExtent_encodeRecord h rest (mem_range.mp hi)
  have htake : ((range 8).map fun index => r.extents.getD index ⟨0, 0⟩).take r.extents.length = r.extents := by
    refine ext_getElem (by simp; omega) fun i h1 h2 => ?_
    rw [getElem_take, getElem_map, getElem_range, getD_eq_getElem _ _ h2]
  have hdrop : ∀ e ∈ ((range 8).map fun index => r.extents.getD index ⟨0, 0⟩).drop r.extents.length,
      e = ⟨0, 0⟩ := by
    intro e he
    obtain ⟨i, hi, rfl⟩ := mem_iff_getElem.mp he
    rw [getElem_drop, getElem_map, getElem_range, getD_eq_default _ _ (Nat.le_add_right _ _)]
  unfold decodeExtents
  dsimp only
  rw [hall, htake, if_neg]
  rintro (hc | hc | hc)
  · exact absurd hcount (by unfold maxPackageExtents at hc; omega)
  · obtain ⟨e, he, hne⟩ := any_eq_true.mp hc
    rw [hdrop e he] at hne
    exact absurd hne (by decide)
  · obtain ⟨e, he, hz⟩ := any_eq_true.mp hc
    have := (h.extents e he).2.1
    rw [beq_iff_eq] at hz
    omega

/-- **A record is read back.** -/
theorem decodeRecord_encodeRecord (h : r.Coded) (rest : List UInt8) :
    decodeRecord ((encodeRecord r).toList ++ rest) = .ok r := by
  have hlen : (encodeRecord r).toList.length = 156 := Vector.length_toList
  have hcount : r.extents.length ≤ 8 := h.count
  have h0 : ((encodeRecord r).toList ++ rest).getD 0 0 = 1 := by
    rw [getD_append _ _ _ _ (by omega), getD_toList, byteAt_encodeRecord h.count (by omega),
      byteAt_recordHead h.alive (by omega)]
    cases r.target with
    | service id => simp [encodeTarget, byteAt_splice]
    | program name =>
      have hn := name.length_le
      simp (disch := first | omega | simp) [encodeTarget, byteAt_splice]
  have h56 : (((encodeRecord r).toList ++ rest).getD 56 0).toNat = r.extents.length := by
    rw [getD_append _ _ _ _ (by omega), getD_toList, byteAt_encodeRecord h.count (by omega),
      byteAt_recordHead_count, UInt8.toNat_ofNat']
    omega
  have hnum := getLe_recordHead h
  have hget : ∀ lo, lo + 4 ≤ 60 → getLe ((encodeRecord r).toList ++ rest) lo 4 = getLe (recordHead r).toList lo 4 := by
    intro lo hlo
    rw [getLe_append_left _ (by omega), getLe_encodeRecord h.count hlo]
  unfold decodeRecord
  rw [if_neg (by rw [not_or, h0, length_append]; exact ⟨by unfold packageRecordBytes; omega, by decide⟩),
    if_neg (by rw [h0]; decide)]
  refine bind_eq_ok.mpr ⟨_, decodeTarget_encodeRecord h.count h.alive rest, ?_⟩
  rw [h56]
  refine bind_eq_ok.mpr ⟨_, decodeExtents_encodeRecord h rest, ?_⟩
  rw [hget 40 (by omega), hget 44 (by omega), hget 48 (by omega), hget 52 (by omega), hnum.1, hnum.2.1, hnum.2.2.1,
    hnum.2.2.2, if_pos (by simp [recordSizeOk, h.generation.1, h.bytes.1, h.bytes.2]), ← h.alive]

end Record

/-! ## The snapshot -/

/-- Zeros written over zeros. -/
theorem splice_zeros {n off : ℕ} {src : List UInt8} (h : off + src.length ≤ n) (hz : ∀ x ∈ src, x = 0) :
    (zeros n).splice off src = zeros n := by
  refine ext_byteAt fun i _ => ?_
  rw [byteAt_splice _ _ _ _ h]
  split
  · next hin =>
    rw [getD_eq_getElem _ _ (by omega), byteAt_zeros]
    exact hz _ (getElem_mem _)
  · rfl

lemma encodeRecord_empty : (encodeRecord .empty).toList = replicate 156 0 := by
  have hzeros : encodeRecord .empty = zeros 156 := by
    show (((putLe (putLe (putLe (putLe ((zeros 156).splice 0 [0]) 40 4 0) 44 4 0) 48 4 0) 52 4 0).splice 56 [0]).splice 60 []) = _
    unfold putLe
    simp (disch := simp [leBytes]) only [splice_zeros]
  rw [hzeros]
  refine eq_replicate_iff.mpr ⟨Vector.length_toList, fun b hb => ?_⟩
  simp only [zeros, Vector.toList_ofFn, mem_ofFn] at hb
  obtain ⟨-, rfl⟩ := hb
  rfl

lemma decodeRecord_zeros {n : ℕ} (hn : 156 ≤ n) : decodeRecord (replicate n 0) = .ok .empty := by
  have h0 : (replicate n (0 : UInt8)).getD 0 0 = 0 := getD_replicate _ (by omega)
  have hdrop : ((replicate n (0 : UInt8)).drop 1).any (· != 0) = false := by simp
  unfold decodeRecord
  rw [if_neg (by rw [not_or, h0, length_replicate]; exact ⟨by unfold packageRecordBytes; omega, by decide⟩),
    if_pos h0, hdrop, if_neg (by decide)]

namespace PackageCatalog

/-- Every slot holds a record that can be stored, or nothing, and those in use come first. -/
structure Coded (c : PackageCatalog) : Prop where
  record : ∀ r ∈ c.records.toList, r.Coded ∨ r = .empty
  order : c.records.toList.Pairwise fun r r' => r'.alive = true → r.alive = true

lemma coded_new : new.Coded := by
  have hall : ∀ r ∈ new.records.toList, r = .empty := by
    intro r hr
    exact eq_of_mem_replicate hr
  refine ⟨fun r hr => .inr (hall r hr), ?_⟩
  refine Pairwise.imp_of_mem ?_ (pairwise_of_forall fun _ _ => trivial)
  intro r r' _ hr' _ halive
  rw [hall r' hr'] at halive
  cases halive

lemma live_new (i : ℕ) (r : PackageRecord) : ¬ new.Live i r := by
  rintro ⟨hr, halive⟩
  have hmem : r ∈ new.records.toList := mem_of_getElem? (by simpa using hr)
  rw [eq_of_mem_replicate hmem] at halive
  cases halive

lemma laidOut_new (arena : ℕ × ℕ) : new.LaidOut arena where
  placed i r hr := absurd hr (live_new i r)
  apart i _ r _ _ hr := absurd hr (live_new i r)
  targets i _ r _ _ hr := absurd hr (live_new i r)

/-- A list of records that can be stored, those in use first: the one in front is read back. -/
theorem decodeRecord_flatMap {r : PackageRecord} {l : List PackageRecord} (hrec : ∀ x ∈ r :: l, x.Coded ∨ x = .empty)
    (hord : (r :: l).Pairwise fun x y => y.alive = true → x.alive = true) :
    decodeRecord ((r :: l).flatMap fun x => (encodeRecord x).toList) = .ok r := by
  rcases hrec r (by simp) with hc | rfl
  · exact decodeRecord_encodeRecord hc _
  -- no slot behind one that is not in use is in use
  have hdead : ∀ x ∈ (empty :: l), x = .empty := by
    intro x hx
    rcases mem_cons.mp hx with rfl | hx
    · rfl
    · refine (hrec x (mem_cons_of_mem _ hx)).resolve_left fun hc => ?_
      have := (pairwise_cons.mp hord).1 x hx hc.alive
      cases this
  have hzeros : ((empty :: l).flatMap fun x => (encodeRecord x).toList) = replicate ((l.length + 1) * 156) 0 := by
    have hlen : ((empty :: l).flatMap fun x => (encodeRecord x).toList).length = (l.length + 1) * 156 := by
      rw [length_flatMap_const fun x _ => (encodeRecord x).length_toList, length_cons]
    refine eq_replicate_iff.mpr ⟨hlen, fun b hb => ?_⟩
    obtain ⟨x, hx, hb⟩ := mem_flatMap.mp hb
    rw [hdead x hx, encodeRecord_empty] at hb
    exact eq_of_mem_replicate hb
  rw [hzeros]
  exact decodeRecord_zeros (by omega)

lemma drop_encodeSnapshot (c : PackageCatalog) (hi : i < 16) :
    c.encodeSnapshot.drop (2 + i * packageRecordBytes) =
      (c.records.toList.drop i).flatMap fun x => (encodeRecord x).toList := by
  unfold encodeSnapshot packageRecordBytes
  rw [add_comm 2, drop_succ_cons, drop_succ_cons]
  have hsplit := take_append_drop i c.records.toList
  have hlen : ((c.records.toList.take i).flatMap fun x => (encodeRecord x).toList).length = i * 156 := by
    rw [length_flatMap_const fun x _ => (encodeRecord x).length_toList, length_take, Vector.length_toList]
    omega
  conv_lhs => rw [← hsplit, flatMap_append]
  rw [← hlen, drop_left']
  rfl

variable {c : PackageCatalog}

/-- The records are read back, each with what follows it. -/
theorem mapM_decodeRecord (hc : c.Coded) : ((range maxPackageRecords).mapM fun index =>
      decodeRecord (c.encodeSnapshot.drop (2 + index * packageRecordBytes))) = .ok c.records.toList := by
  have hlen : c.records.toList.length = 16 := Vector.length_toList
  have hone : ∀ i ∈ range maxPackageRecords,
      decodeRecord (c.encodeSnapshot.drop (2 + i * packageRecordBytes)) = .ok (c.records.toList.getD i .empty) := by
    intro i hi
    have hi : i < 16 := mem_range.mp hi
    have hdrop : c.records.toList.drop i = c.records.toList.getD i .empty :: c.records.toList.drop (i + 1) := by
      rw [drop_eq_getElem_cons (by omega), getD_eq_getElem _ _ (by omega)]
    rw [drop_encodeSnapshot c hi, hdrop]
    refine decodeRecord_flatMap (fun x hx => ?_) ?_
    · rw [← hdrop] at hx
      exact hc.record x (mem_of_mem_drop hx)
    · rw [← hdrop]
      exact hc.order.drop
  rw [mapM_eq_ok hone]
  refine congrArg Except.ok ?_
  refine ext_getElem (by simp [maxPackageRecords]) fun i h1 h2 => ?_
  rw [getElem_map, getElem_range, getD_eq_getElem _ _ h2]

lemma ofRecords_toList (c : PackageCatalog) : ofRecords c.records.toList = c := by
  refine congrArg PackageCatalog.mk ?_
  refine Vector.ext fun i hi => ?_
  rw [Vector.getElem_ofFn, getD_eq_getElem _ _ (by simpa using hi)]
  exact Vector.getElem_toList _

variable {arena : ℕ × ℕ}

/-- A package takes at least one block, so there is room in the arena. -/
theorem arena_lt_of_placed {r : PackageRecord} (hc : r.Coded) (hp : r.Placed arena) : arena.1 < arena.2 := by
  have htotal := hp.total
  have hbytes : 32 ≤ r.bytes := hc.bytes.1
  rcases hext : r.extents with _ | ⟨e, l⟩
  · rw [hext, Extent.total] at htotal
    unfold blockBytes at htotal
    omega
  · have hin := hp.inside e (by rw [hext]; simp)
    have := hin.pos
    have := hin.start
    have := hin.stop
    omega

lemma checkRecords_of_laidOut (hc : c.Coded) (hl : c.LaidOut arena)
    (hbound : arena.2 < 2 ^ 64) : checkRecords c.records.toList (some arena) = .ok () := by
  have hlive : ∀ {i r}, c.records.toList[i]? = some r → r.alive = true → c.Live i r :=
    fun h ha => ⟨by simpa using h, ha⟩
  unfold checkRecords
  rw [forM_eq_ok]
  rintro ⟨r, i⟩ hmem
  have hi := mem_zipIdx_iff_getElem?.mp hmem
  dsimp only at hi ⊢
  split
  · next halive =>
    have hcoded : r.Coded := (hc.record r (mem_of_getElem? hi)).resolve_right fun h => by
      rw [h] at halive
      cases halive
    have hplaced := hl.placed i r (hlive hi halive)
    rw [if_neg]
    · refine validate_of_placed (arena_lt_of_placed hcoded hplaced) hbound halive hplaced ?_
      intro j other hj hne ha
      refine ⟨hl.placed j other (hlive hj ha), ?_⟩
      exact hl.apart i j r other (fun h => hne (by rw [h])) (hlive hi halive) (hlive hj ha)
    · intro hany
      obtain ⟨other, ho, hsame⟩ := any_eq_true.mp hany
      obtain ⟨j, hj, ho⟩ := mem_take_iff.mp ho
      simp only [Bool.and_eq_true, beq_iff_eq] at hsame
      exact hl.targets j i other r (ne_of_lt hj) (hlive ho hsame.1) (hlive hi halive) hsame.2
  · rfl

/-- **The package snapshot and back.** -/
theorem restoreSnapshot_encodeSnapshot {arena : Option (ℕ × ℕ)} (hc : c.Coded)
    (hcheck : checkRecords c.records.toList arena = .ok ()) : restoreSnapshot c.encodeSnapshot arena = .ok c := by
  have hlen := length_encodeSnapshot c
  unfold restoreSnapshot
  rw [if_neg (by rw [hlen]; exact fun h => absurd h.1 (by decide)), if_pos ⟨hlen, rfl, rfl⟩]
  refine bind_eq_ok.mpr ⟨_, mapM_decodeRecord hc, ?_⟩
  refine bind_eq_ok.mpr ⟨_, hcheck, ?_⟩
  rw [ofRecords_toList]

/-! ## Installs and updates -/

variable {c' : PackageCatalog} {kind : ℕ} {payload : List UInt8}

/-- A live record that the decoder accepts can be stored again. -/
theorem coded_of_decodeRecord {r : PackageRecord} (h : decodeRecord payload = .ok r) (halive : r.alive = true) : r.Coded := by
  have hpos := decodeRecord_pos h
  obtain rfl | ⟨target, extents, hext, hsize, rfl⟩ := decodeRecord_eq_ok h
  · cases halive
  simp only [recordSizeOk, Bool.and_eq_true, bne_iff_ne, decide_eq_true_eq] at hsize
  cases (ite_eq_ok.mp hext).2
  refine ⟨rfl, ⟨hsize.1.1, getLe_lt _ _ 4⟩, getLe_lt _ _ 4, ⟨hsize.1.2, hsize.2⟩, getLe_lt _ _ 4, ?_, fun e he => ?_⟩
  · simp [maxPackageExtents]
  · obtain ⟨i, -, rfl⟩ := mem_map.mp (mem_of_mem_take he)
    exact ⟨getLe_lt _ _ 8, hpos _ he, getLe_lt _ _ 4⟩

lemma applyRecord_eq_ok {arena : Option (ℕ × ℕ)} (h : c.applyRecord kind payload arena = .ok c') :
    ∃ r slot a, decodeRecord payload = .ok r ∧ c.slotFor r.target = some slot ∧ arena = some a ∧
      validateRecordLayout r a c.records.toList (some slot) = .ok () ∧ c' = ⟨c.records.setIfInBounds slot r⟩ := by
  unfold applyRecord at h
  split at h
  · cases h
  obtain ⟨r, hr, h⟩ := bind_eq_ok.mp h
  split at h
  · cases h
  next slot hslot =>
  split at h
  · cases h
  obtain ⟨⟨⟩, hlayout, h⟩ := bind_eq_ok.mp h
  exact ⟨r, slot, _, hr, hslot, rfl, hlayout, (Except.ok.inj h).symm⟩

/-- The slot for a target: no other slot has the target, and every slot in front of it is in use. -/
theorem slotFor_eq_some (hc : c.Coded) (hl : c.LaidOut arena) {target : PackageKey} {slot : ℕ}
    (h : c.slotFor target = some slot) :
    (∀ j r, c.Live j r → r.target = target → j = slot) ∧ ∀ j < slot, ∀ r, c.records[j]? = some r → r.alive = true := by
  rcases Option.or_eq_some_iff.mp h with h | ⟨hnone, h⟩
  · obtain ⟨hlt, hfound, -⟩ := findIdx?_eq_some_iff_getElem.mp h
    simp only [Bool.and_eq_true, beq_iff_eq] at hfound
    have hslot : c.Live slot c.records.toList[slot] := ⟨by simp, hfound.1⟩
    refine ⟨fun j r hj hr => by_contra fun hne => ?_, fun j hj r hr => ?_⟩
    · exact hl.targets j slot _ _ hne hj hslot (hr.trans hfound.2.symm)
    · exact pairwise_iff_getElem?.mp hc.order j slot r _ hj (by simpa using hr) (by simp) hslot.2
  · have hfree := (findIdx?_eq_some_iff_getElem.mp h).2.2
    refine ⟨fun j r hj hr => ?_, fun j hj r hr => ?_⟩
    · have := findIdx?_eq_none_iff.mp hnone r (mem_of_getElem? (by simpa using hj.1))
      simp [hj.2, hr] at this
    · obtain ⟨hlt, rfl⟩ := Vector.getElem?_eq_some_iff.mp hr
      simpa using hfree j hj

/-- A record is put where the order, the targets and the blocks of the others allow it. -/
theorem applyRecord_keeps (hc : c.Coded) (hl : c.LaidOut arena) (h : c.applyRecord kind payload (some arena) = .ok c') :
    c'.Coded ∧ c'.LaidOut arena := by
  obtain ⟨r, slot, a, hr, hslot, ha, hlayout, rfl⟩ := applyRecord_eq_ok h
  obtain rfl := Option.some.inj ha
  have halive := (validateRecordLayout_eq_ok_iff.mp hlayout).2.1
  obtain ⟨htarget, hbefore⟩ := slotFor_eq_some hc hl hslot
  -- a slot of the new catalog is that of the record, or has not changed
  have hget : ∀ {j x}, (c.records.setIfInBounds slot r)[j]? = some x →
      j = slot ∧ x = r ∨ j ≠ slot ∧ c.records[j]? = some x := by
    intro j x hx
    rw [Vector.getElem?_setIfInBounds] at hx
    split_ifs at hx with h1 h2
    · exact .inl ⟨h1.symm, (Option.some.inj hx).symm⟩
    · exact .inr ⟨Ne.symm h1, hx⟩
  have hnew : ∀ {j x}, j ≠ slot → c.Live j x → r.Apart x ∧ r.target ≠ x.target := fun hne hx =>
    ⟨apart_of_validate hlayout (by simpa using hx.1) (fun hs => hne (Option.some.inj hs)) hx.2,
      fun heq => hne (htarget _ _ hx heq.symm)⟩
  have hpair : ∀ i j x y, i ≠ j → Live ⟨c.records.setIfInBounds slot r⟩ i x → Live ⟨c.records.setIfInBounds slot r⟩ j y →
      x.Apart y ∧ x.target ≠ y.target := by
    rintro i j x y hij ⟨hi, hx⟩ ⟨hj, hy⟩
    obtain ⟨rfl, rfl⟩ | ⟨hne, hi'⟩ := hget hi
    · obtain ⟨rfl, -⟩ | ⟨hne, hj'⟩ := hget hj
      · exact absurd rfl hij
      · exact hnew hne ⟨hj', hy⟩
    · obtain ⟨rfl, rfl⟩ | ⟨-, hj'⟩ := hget hj
      · obtain ⟨hapart, hdiffer⟩ := hnew hne ⟨hi', hx⟩
        exact ⟨fun e he e' he' => (hapart e' he' e he).symm, hdiffer.symm⟩
      · exact ⟨hl.apart i j x y hij ⟨hi', hx⟩ ⟨hj', hy⟩, hl.targets i j x y hij ⟨hi', hx⟩ ⟨hj', hy⟩⟩
  refine ⟨⟨fun x hx => ?_, pairwise_iff_getElem?.mpr fun i j x y hij hx hy hya => ?_⟩, ⟨?_, ?_, ?_⟩⟩
  · obtain ⟨j, hj⟩ := mem_iff_getElem?.mp hx
    rw [Vector.getElem?_toList] at hj
    obtain ⟨-, rfl⟩ | ⟨-, hj⟩ := hget hj
    · exact .inl (coded_of_decodeRecord hr halive)
    · exact hc.record x (mem_of_getElem? (by simpa using hj))
  · rw [Vector.getElem?_toList] at hx hy
    obtain ⟨rfl, rfl⟩ | ⟨-, hx'⟩ := hget hx
    · exact halive
    · obtain ⟨rfl, rfl⟩ | ⟨-, hy'⟩ := hget hy
      · exact hbefore i hij x hx'
      · exact pairwise_iff_getElem?.mp hc.order i j x y hij (by simpa using hx') (by simpa using hy') hya
  · rintro j x ⟨hj, hx⟩
    obtain ⟨-, rfl⟩ | ⟨-, hj⟩ := hget hj
    · exact placed_of_validate (decodeRecord_pos hr) hlayout
    · exact hl.placed j x ⟨hj, hx⟩
  · exact fun i j x y hij hx hy => (hpair i j x y hij hx hy).1
  · exact fun i j x y hij hx hy => (hpair i j x y hij hx hy).2

/-- The catalogs that records make of the empty one. -/
inductive Installed (arena : Option (ℕ × ℕ)) : PackageCatalog → Prop
  | new : Installed arena new
  | step {c c' : PackageCatalog} {kind : ℕ} {payload : List UInt8} :
    Installed arena c → c.applyRecord kind payload arena = .ok c' → Installed arena c'

lemma keeps_of_installed (h : Installed (some arena) c) : c.Coded ∧ c.LaidOut arena := by
  induction h with
  | new => exact ⟨coded_new, laidOut_new arena⟩
  | step _ happly ih => exact applyRecord_keeps ih.1 ih.2 happly

/-- Without an arena nothing is ever installed. -/
theorem eq_new_of_installed (h : Installed none c) : c = new := by
  cases h with
  | new => rfl
  | step _ happly =>
    obtain ⟨_, _, _, _, _, ha, _⟩ := applyRecord_eq_ok happly
    cases ha

end PackageCatalog

end LogOS.StorageService
