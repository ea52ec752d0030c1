import LogOS.StorageService.Packages
import Mathlib.Data.List.Pairwise

/-!
# Extents that lie apart

What the layout checks of the service establish.  Each of them compares an extent with the ones before it, and with those of
other records; put together they say that the extents of a record, of a catalog and of a namespace are pairwise disjoint
and inside of their arena.
-/

namespace LogOS.StorageService

open Lib Abi Storage Storage.Catalog Package List

/-! ## Two extents -/

variable {e : Extent} {arena : ℕ × ℕ}

/-- The extent is not empty and lies in the arena. -/
structure Inside (arena : ℕ × ℕ) (e : Extent) : Prop where
  pos : 0 < e.blocks
  start : arena.1 ≤ e.start
  stop : e.start + e.blocks ≤ arena.2

lemma insideArena_iff :
    insideArena e arena = true ↔ arena.1 ≤ e.start ∧ e.start + e.blocks < 2 ^ 64 ∧ e.start + e.blocks ≤ arena.2 := by
  unfold insideArena checkedAdd
  split <;> simp <;> omega

lemma disjoint_of_not_meet {a b : Extent} (h : extentsMeet a b = false) : a.Disjoint b := by
  unfold extentsMeet checkedAdd at h
  rintro i ⟨h1, h2⟩ ⟨h3, h4⟩
  split at h
  · next aEnd bEnd ha hb =>
    simp only [Option.ite_none_right_eq_some, Option.some.injEq] at ha hb
    simp only [Bool.and_eq_false_iff, decide_eq_false_iff_not] at h
    omega
  · cases h

lemma not_meet_of_disjoint {a b : Extent} (ha : 0 < a.blocks) (hb : 0 < b.blocks) (ha' : a.start + a.blocks < 2 ^ 64)
    (hb' : b.start + b.blocks < 2 ^ 64) (h : a.Disjoint b) : extentsMeet a b = false := by
  rw [Extent.disjoint_iff ha hb] at h
  unfold extentsMeet checkedAdd
  rw [if_pos ha', if_pos hb']
  simp only [Bool.and_eq_false_iff, decide_eq_false_iff_not]
  omega

/-! ## A list against the elements before -/

variable {α : Type}

lemma forall_mem_zipIdx {l : List α} {P : α → ℕ → Prop} :
    (∀ x ∈ l.zipIdx, P x.1 x.2) ↔ ∀ (i : ℕ) (a : α), l[i]? = some a → P a i := by
  constructor
  · intro h i a ha
    exact h (a, i) (mem_zipIdx_iff_getElem?.mpr ha)
  · rintro h ⟨a, i⟩ hx
    exact h i a (mem_zipIdx_iff_getElem?.mp hx)

lemma mem_take_iff {l : List α} {k : ℕ} {a : α} : a ∈ l.take k ↔ ∃ i < k, l[i]? = some a := by
  constructor
  · intro h
    obtain ⟨i, hi, rfl⟩ := mem_iff_getElem.mp h
    have hlen : i < min k l.length := by simpa using hi
    exact ⟨i, by omega, by rw [getElem_take]; exact getElem?_eq_getElem _⟩
  · rintro ⟨i, hi, ha⟩
    exact mem_of_getElem? (by rw [getElem?_take, if_pos hi]; exact ha)

lemma pairwise_iff_getElem? {R : α → α → Prop} {l : List α} :
    l.Pairwise R ↔ ∀ (i j : ℕ) (a b : α), i < j → l[i]? = some a → l[j]? = some b → R a b := by
  rw [List.pairwise_iff_getElem]
  constructor
  · intro h i j a b hij ha hb
    obtain ⟨hi, rfl⟩ := List.getElem?_eq_some_iff.mp ha
    obtain ⟨hj, rfl⟩ := List.getElem?_eq_some_iff.mp hb
    exact h i j hi hj hij
  · intro h i j hi hj hij
    exact h i j _ _ hij (List.getElem?_eq_getElem hi) (List.getElem?_eq_getElem hj)

/-- Comparing each element with those before it compares all pairs. -/
theorem pairwise_iff_take {R : α → α → Prop} {l : List α} :
    l.Pairwise R ↔ ∀ (k : ℕ) (a : α), l[k]? = some a → ∀ b ∈ l.take k, R b a := by
  rw [pairwise_iff_getElem?]
  constructor
  · intro h k a ha b hb
    obtain ⟨i, hi, hb⟩ := mem_take_iff.mp hb
    exact h i k b a hi hb ha
  · intro h i j a b hij ha hb
    exact h j b hb a (mem_take_iff.mpr ⟨i, hij, ha⟩)

/-! ## Packages -/

variable {records : List PackageRecord}

/-- The extents of a package lie in the arena, apart from each other, and are as many blocks as its bytes need. -/
structure PackageRecord.Placed (arena : ℕ × ℕ) (r : PackageRecord) : Prop where
  inside : ∀ e ∈ r.extents, Inside arena e
  apart : r.extents.Pairwise Extent.Disjoint
  total : Extent.total r.extents = (r.bytes + blockBytes - 1) / blockBytes

/-- No block of one record is a block of the other. -/
def PackageRecord.Apart (r r' : PackageRecord) : Prop := ∀ e ∈ r.extents, ∀ e' ∈ r'.extents, e.Disjoint e'

/-- The two layers of the check, without the loops. -/
theorem validateRecordLayout_eq_ok_iff {record : PackageRecord}
    {skip : Option ℕ} : validateRecordLayout record arena records skip = .ok () ↔
      arena.1 < arena.2 ∧ record.alive = true ∧
      (∀ (k : ℕ) (e : Extent), record.extents[k]? = some e → insideArena e arena = true ∧
        (∀ p ∈ record.extents.take k, extentsMeet e p = false) ∧
        ∀ (j : ℕ) (other : PackageRecord), records[j]? = some other → some j ≠ skip → other.alive = true →
          ∀ o ∈ other.extents, extentsMeet e o = false) ∧
      Extent.total record.extents = (record.bytes + blockBytes - 1) / blockBytes := by
  have hall : (record.extents.zipIdx.all fun x =>
      insideArena x.1 arena && (record.extents.take x.2).all (fun previous => !extentsMeet x.1 previous) &&
        records.zipIdx.all fun y => some y.2 == skip || !y.1.alive ||
          y.1.extents.all fun otherExtent => !extentsMeet x.1 otherExtent) = true ↔
      ∀ (k : ℕ) (e : Extent), record.extents[k]? = some e → insideArena e arena = true ∧
        (∀ p ∈ record.extents.take k, extentsMeet e p = false) ∧
        ∀ (j : ℕ) (other : PackageRecord), records[j]? = some other → some j ≠ skip → other.alive = true →
          ∀ o ∈ other.extents, extentsMeet e o = false := by
    rw [all_eq_true, ← forall_mem_zipIdx]
    refine forall₂_congr fun x _ => ?_
    simp only [Bool.and_eq_true, all_eq_true, Bool.not_eq_true', and_assoc]
    refine and_congr_right fun _ => and_congr_right fun _ => ?_
    rw [← forall_mem_zipIdx]
    refine forall₂_congr fun y _ => ?_
    simp only [Bool.or_eq_true]
    by_cases hs : some y.2 = skip
    · simp [hs]
    · cases y.1.alive <;> simp [hs]
  simp only [validateRecordLayout, ite_eq_ok, not_or, not_not, not_le, hall, and_true, and_assoc]

section Layout

variable {record : PackageRecord} {skip : Option ℕ}

lemma placed_of_validate (hpos : ∀ e ∈ record.extents, 0 < e.blocks)
    (h : validateRecordLayout record arena records skip = .ok ()) : record.Placed arena := by
  obtain ⟨-, -, hext, htotal⟩ := validateRecordLayout_eq_ok_iff.mp h
  refine ⟨?_, ?_, htotal⟩
  · intro e he
    obtain ⟨k, hk⟩ := mem_iff_getElem?.mp he
    obtain ⟨h1, -, h2⟩ := insideArena_iff.mp (hext k e hk).1
    exact ⟨hpos e he, h1, h2⟩
  · rw [pairwise_iff_take]
    intro k e hk p hp
    exact (disjoint_of_not_meet ((hext k e hk).2.1 p hp)).symm

lemma apart_of_validate (h : validateRecordLayout record arena records skip = .ok ()) {j : ℕ} {other : PackageRecord}
    (hj : records[j]? = some other) (hskip : some j ≠ skip) (halive : other.alive = true) : record.Apart other := by
  obtain ⟨-, -, hext, -⟩ := validateRecordLayout_eq_ok_iff.mp h
  intro e he o ho
  obtain ⟨k, hk⟩ := mem_iff_getElem?.mp he
  exact disjoint_of_not_meet ((hext k e hk).2.2 j other hj hskip halive o ho)

/-- The check accepts what lies apart. -/
theorem validate_of_placed (harena : arena.1 < arena.2) (hbound : arena.2 < 2 ^ 64) (halive : record.alive = true)
    (hplaced : record.Placed arena)
    (hothers : ∀ (j : ℕ) (other : PackageRecord), records[j]? = some other → some j ≠ skip → other.alive = true →
      other.Placed arena ∧ record.Apart other) : validateRecordLayout record arena records skip = .ok () := by
  rw [validateRecordLayout_eq_ok_iff]
  refine ⟨harena, halive, ?_, hplaced.total⟩
  intro k e hk
  have he := hplaced.inside e (mem_of_getElem? hk)
  have hlt : e.start + e.blocks < 2 ^ 64 := lt_of_le_of_lt he.stop hbound
  refine ⟨insideArena_iff.mpr ⟨he.start, hlt, he.stop⟩, ?_, ?_⟩
  · intro p hp
    have hpin := hplaced.inside p (mem_of_mem_take hp)
    exact not_meet_of_disjoint he.pos hpin.pos hlt (lt_of_le_of_lt hpin.stop hbound)
      (pairwise_iff_take.mp hplaced.apart k e hk p hp).symm
  · intro j other hj hskip hal o ho
    obtain ⟨hplaced', hapart⟩ := hothers j other hj hskip hal
    have hoin := hplaced'.inside o ho
    exact not_meet_of_disjoint he.pos hoin.pos hlt (lt_of_le_of_lt hoin.stop hbound) (hapart e (mem_of_getElem? hk) o ho)

end Layout

/-! ## The catalog -/

variable {c : PackageCatalog} {r : PackageRecord}

namespace PackageCatalog

/-- The record in a slot, when it is alive. -/
def Live (c : PackageCatalog) (i : ℕ) (r : PackageRecord) : Prop := c.records[i]? = some r ∧ r.alive = true

/-- No two packages have one target, and no two packages share a block. -/
structure LaidOut (arena : ℕ × ℕ) (c : PackageCatalog) : Prop where
  placed : ∀ i r, c.Live i r → r.Placed arena
  apart : ∀ i j r r', i ≠ j → c.Live i r → c.Live j r' → r.Apart r'
  targets : ∀ i j r r', i ≠ j → c.Live i r → c.Live j r' → r.target ≠ r'.target

lemma mem_live_iff : r ∈ c.live ↔ ∃ i, c.Live i r := by
  unfold live
  rw [mem_filter, mem_iff_getElem?]
  constructor
  · rintro ⟨⟨i, hi⟩, ha⟩
    exact ⟨i, by simpa using hi, ha⟩
  · rintro ⟨i, hi, ha⟩
    exact ⟨⟨i, by simpa using hi⟩, ha⟩

lemma mem_usedExtents_iff : e ∈ c.usedExtents ↔ ∃ i r, c.Live i r ∧ e ∈ r.extents := by
  unfold usedExtents
  rw [mem_flatMap]
  constructor
  · rintro ⟨r, hr, he⟩
    obtain ⟨i, hi⟩ := mem_live_iff.mp hr
    exact ⟨i, r, hi, he⟩
  · rintro ⟨i, r, hr, he⟩
    exact ⟨r, mem_live_iff.mpr ⟨i, hr⟩, he⟩

namespace LaidOut

lemma inside (h : c.LaidOut arena) (he : e ∈ c.usedExtents) : Inside arena e := by
  obtain ⟨i, r, hr, he⟩ := mem_usedExtents_iff.mp he
  exact (h.placed i r hr).inside e he

lemma pairwise (h : c.LaidOut arena) : c.usedExtents.Pairwise Extent.Disjoint := by
  unfold usedExtents
  rw [pairwise_flatMap]
  constructor
  · intro r hr
    obtain ⟨i, hi⟩ := mem_live_iff.mp hr
    exact (h.placed i r hi).apart
  · unfold live
    rw [pairwise_filter, pairwise_iff_getElem?]
    intro i j r r' hij hr hr' ha ha'
    exact h.apart i j r r' (ne_of_lt hij) ⟨by simpa using hr, ha⟩ ⟨by simpa using hr', ha'⟩

end LaidOut

lemma live_ofRecords {i : ℕ} (h : (ofRecords records).Live i r) : records[i]? = some r := by
  obtain ⟨hi, halive⟩ := h
  unfold ofRecords at hi
  obtain ⟨hlt, rfl⟩ := Vector.getElem?_eq_some_iff.mp hi
  rw [Vector.getElem_ofFn] at halive ⊢
  by_cases hl : i < records.length
  · rw [getD_eq_getElem _ _ hl]
    exact getElem?_eq_getElem hl
  · rw [getD_eq_default _ _ (not_lt.mp hl)] at halive
    cases halive

/-- What the check of a snapshot's records establishes. -/
theorem laidOut_of_checkRecords
    (hpos : ∀ r ∈ records, ∀ e ∈ r.extents, 0 < e.blocks) (h : checkRecords records (some arena) = .ok ()) :
    (ofRecords records).LaidOut arena := by
  have hcheck : ∀ i r, records[i]? = some r → r.alive = true →
      (∀ other ∈ records.take i, other.alive = true → other.target ≠ r.target) ∧
        validateRecordLayout r arena records (some i) = .ok () := by
    intro i r hr halive
    have hi := forM_eq_ok.mp h (r, i) (mem_zipIdx_iff_getElem?.mpr hr)
    simp only [halive, if_true, ite_eq_ok] at hi
    refine ⟨fun other ho hal heq => hi.1 (any_eq_true.mpr ⟨other, ho, by simp [hal, heq]⟩), hi.2⟩
  refine ⟨?_, ?_, ?_⟩
  · intro i r hr
    have hrec := live_ofRecords hr
    exact placed_of_validate (hpos r (mem_of_getElem? hrec)) (hcheck i r hrec hr.2).2
  · intro i j r r' hij hr hr'
    exact apart_of_validate (hcheck i r (live_ofRecords hr) hr.2).2 (live_ofRecords hr')
      (fun hs => hij (Option.some.inj hs).symm) hr'.2
  · intro i j r r' hij hr hr' heq
    rcases Nat.lt_or_gt_of_ne hij with hlt | hlt
    · exact (hcheck j r' (live_ofRecords hr') hr'.2).1 r (mem_take_iff.mpr ⟨i, hlt, live_ofRecords hr⟩) hr.2 heq
    · exact (hcheck i r (live_ofRecords hr) hr.2).1 r' (mem_take_iff.mpr ⟨j, hlt, live_ofRecords hr'⟩) hr'.2 heq.symm

/-- Without a package arena there are no packages. -/
theorem not_live_of_checkRecords (h : checkRecords records none = .ok ()) (i : ℕ)
    (r : PackageRecord) : ¬ (ofRecords records).Live i r := by
  intro hr
  have hi := forM_eq_ok.mp h (r, i) (mem_zipIdx_iff_getElem?.mpr (live_ofRecords hr))
  simp only [hr.2] at hi
  cases hi

end PackageCatalog

/-! ## Decoded packages -/

variable {input : List UInt8}

lemma decodeExtents_pos {offset stride count : ℕ} {extents : List PackageExtent}
    (h : decodeExtents input offset stride count = .ok extents) : ∀ e ∈ extents, 0 < e.blocks := by
  simp only [decodeExtents, ite_eq_ok, not_or, any_eq_true, beq_iff_eq, not_exists, not_and] at h
  obtain ⟨⟨-, -, hpos⟩, h⟩ := h
  cases h
  exact fun e he => Nat.pos_of_ne_zero (hpos e he)

/-- What the decoder accepts: nothing, or a live record with the fields it has read. -/
theorem decodeRecord_eq_ok (h : decodeRecord input = .ok r) : r = .empty ∨
    ∃ target extents, decodeExtents input 60 12 (input.getD 56 0).toNat = .ok extents ∧
      recordSizeOk (getLe input 40 4) (getLe input 48 4) = true ∧
      r = ⟨true, target, getLe input 40 4, getLe input 44 4, getLe input 48 4, getLe input 52 4, extents⟩ := by
  obtain ⟨-, h⟩ := ite_eq_ok.mp h
  split at h
  · exact .inl (Except.ok.inj (ite_eq_ok.mp h).2).symm
  · simp only [bind_eq_ok, ite_eq_ok_of_else] at h
    obtain ⟨target, -, extents, hext, hsize, h⟩ := h
    exact .inr ⟨target, extents, hext, hsize, (Except.ok.inj h).symm⟩

lemma decodeRecord_pos (h : decodeRecord input = .ok r) : ∀ e ∈ r.extents, 0 < e.blocks := by
  obtain rfl | ⟨_, _, hext, -, rfl⟩ := decodeRecord_eq_ok h
  · nofun
  · exact decodeExtents_pos hext

lemma decodeLegacyRecord_pos (h : decodeLegacyRecord input = .ok r) : ∀ e ∈ r.extents, 0 < e.blocks := by
  obtain ⟨-, h⟩ := ite_eq_ok.mp h
  split at h
  · cases (ite_eq_ok.mp h).2
    exact nofun
  split at h
  · cases h
  simp only [bind_eq_ok, ite_eq_ok_of_else] at h
  obtain ⟨extents, hext, -, h⟩ := h
  cases h
  exact decodeExtents_pos hext

namespace PackageCatalog

/-- A restored catalog is made of records that were checked against each other. -/
theorem restoreSnapshot_eq_ok {arena : Option (ℕ × ℕ)} (h : restoreSnapshot input arena = .ok c) :
    ∃ records, c = ofRecords records ∧ checkRecords records arena = .ok () ∧ ∀ r ∈ records, ∀ e ∈ r.extents, 0 < e.blocks := by
  have hend : ∀ {x : Except PackageCatalogError (List PackageRecord)},
      (x >>= fun records => checkRecords records arena >>= fun _ => .ok (ofRecords records)) = .ok c →
      (∀ records, x = .ok records → ∀ r ∈ records, ∀ e ∈ r.extents, 0 < e.blocks) →
      ∃ records, c = ofRecords records ∧ checkRecords records arena = .ok () ∧
        ∀ r ∈ records, ∀ e ∈ r.extents, 0 < e.blocks := by
    intro x hx hpos
    obtain ⟨records, hrec, hx⟩ := bind_eq_ok.mp hx
    obtain ⟨⟨⟩, hcheck, hx⟩ := bind_eq_ok.mp hx
    cases hx
    exact ⟨records, rfl, hcheck, hpos records hrec⟩
  unfold restoreSnapshot at h
  dsimp only at h
  split at h
  · refine hend h fun records hrec r hr => ?_
    obtain ⟨_, -, hdec⟩ := (of_mapM_eq_ok hrec).2 r hr
    exact decodeLegacyRecord_pos hdec
  split at h
  · refine hend h fun records hrec r hr => ?_
    obtain ⟨_, -, hdec⟩ := (of_mapM_eq_ok hrec).2 r hr
    exact decodeRecord_pos hdec
  · split at h
    · refine hend h fun records hrec r hr => ?_
      obtain ⟨_, -, hdec⟩ := (of_mapM_eq_ok hrec).2 r hr
      exact decodeLegacyRecord_pos hdec
    · cases h

end PackageCatalog

end LogOS.StorageService
