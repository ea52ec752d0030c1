import LogOS.Storage.Catalog.Volume

/-!
# What a store says its root is

`Anchored s R R'` speaks of the two superblocks and the two commit slots of a store, and of every content they may be
found with after a power loss: whatever combination survives, opening the volume gives the root `R` or the root `R'`, its
successor.  With `R' = R` the root is decided (`Settled`); in between stands the moment after the commit record of `R'` was
written and before it was flushed (`Torn`).  The main result is `wp_openVolume`, under any pattern of I/O failures.
-/

namespace LogOS.Storage.Catalog

open Lib SystemCatalogVolume Op StoreModel List

/-! ## The newest commit record -/

/-- The search of `open` over the records it found, in the order of the slots. -/
def newestCommit (root : SystemCatalogRoot) (candidate : Option CommitRecord) (found : List CommitRecord) :
    Option CommitRecord :=
  found.foldl (considerCommit root) candidate

/-- A record that `open` would prefer to the root it read. -/
def Supersedes (root : SystemCatalogRoot) (m : CommitRecord) : Prop :=
  m.generation > root.generation ∧ validateCommit root m = .ok ()

lemma newestCommit_spec (root : SystemCatalogRoot) (found seen : List CommitRecord) (candidate : Option CommitRecord)
    (hnone : candidate = none → ∀ m ∈ seen, ¬ Supersedes root m)
    (hsome : ∀ c, candidate = some c → c ∈ seen ∧ Supersedes root c ∧
      ∀ m ∈ seen, Supersedes root m → m.generation ≤ c.generation) :
    (newestCommit root candidate found = none → ∀ m ∈ seen ++ found, ¬ Supersedes root m) ∧
      ∀ c, newestCommit root candidate found = some c → c ∈ seen ++ found ∧ Supersedes root c ∧
        ∀ m ∈ seen ++ found, Supersedes root m → m.generation ≤ c.generation := by
  induction found generalizing seen candidate with
  | nil => simpa [newestCommit] using ⟨hnone, hsome⟩
  | cons m found ih =>
    have key := ih (seen ++ [m]) (considerCommit root candidate m) ?_ ?_
    · simpa [newestCommit] using key
    · -- no candidate after `m`: there was none before, and `m` itself does not supersede the root
      intro hc
      unfold considerCommit at hc
      split at hc
      · cases hc
      next hm =>
      subst hc
      intro m' hm'
      rcases mem_append.mp hm' with h | h
      · exact hnone rfl m' h
      · obtain rfl : m' = m := by simpa using h
        exact fun hs => hm ⟨hs.1, by simp, hs.2⟩
    · intro c hc
      unfold considerCommit at hc
      split at hc
      · next hm =>
        obtain rfl : m = c := by simpa using hc
        refine ⟨by simp, ⟨hm.1, hm.2.2⟩, fun m' hm' hs => ?_⟩
        rcases mem_append.mp hm' with h | h
        · cases hcand : candidate with
          | none => exact (hnone hcand m' h hs).elim
          | some c' =>
            have h1 := (hsome c' hcand).2.2 m' h hs
            have h2 := hm.2.1
            rw [hcand] at h2
            simp only [Option.all_some, decide_eq_true_eq] at h2
            omega
        · obtain rfl : m' = m := by simpa using h
          exact le_refl _
      · next hm =>
        obtain ⟨h1, h2, h3⟩ := hsome c hc
        refine ⟨by simp [h1], h2, fun m' hm' hs => ?_⟩
        rcases mem_append.mp hm' with h | h
        · exact h3 m' h hs
        · obtain rfl : m' = m := by simpa using h
          by_contra hlt
          exact hm ⟨hs.1, by rw [hc]; simpa using hlt, hs.2⟩

/-! ## Anchored stores -/

variable {σ : Type} [BlockStore σ] [LawfulStore σ]

/-- Whatever a power loss leaves of the superblocks and commit slots, the volume opens to `R` or to `R'`. -/
structure Anchored (s : σ) (R R' : SystemCatalogRoot) : Prop where
  valid : R.Valid (blockCount s)
  valid' : R'.Valid (blockCount s)
  kin : R.Kin R'
  next : R' = R ∨ R'.generation = R.generation + 1
  /-- No superblock is newer than `R'`, and none is of the generation of one of the two without being it. -/
  superblock : ∀ i < 2, ∀ c, poss s i c → ∃ r, decodeRoot c = .ok (some r) ∧ r.Valid (blockCount s) ∧ r.Kin R ∧
    (r.generation < R.generation ∨ r = R ∨ r = R')
  /-- The same of the commit records, each of which is in the slot of its parity. -/
  commitSlot : ∀ k < 2, ∀ c, poss s (commitStart + k) c → decodeCommit c = .ok none ∨
    ∃ m, decodeCommit c = .ok (some m) ∧ m.generation % 2 = k ∧
      (m.generation < R.generation ∨ m = R.commitRecord ∨ m = R'.commitRecord)
  /-- The generation of `R` is never lost: its commit record is durable, or it is in both superblocks, so that it is
  found even when one of them cannot be read. -/
  anchor : (∀ c, poss s (commitStart + R.generation % 2) c → decodeCommit c = .ok (some R.commitRecord)) ∨
    ∀ i < 2, ∀ c, poss s i c → decodeRoot c = .ok (some R) ∨ decodeRoot c = .ok (some R')

/-- The root of the store is `R`, whatever a power loss leaves. -/
abbrev Settled (s : σ) (R : SystemCatalogRoot) : Prop := Anchored s R R

/-- The commit record of `R'` is written and not flushed, and no superblock has followed it. -/
structure Torn (s : σ) (R R' : SystemCatalogRoot) : Prop where
  anchored : Anchored s R R'
  next : R'.generation = R.generation + 1
  seen : decodeCommit (view s (commitStart + R'.generation % 2)) = .ok (some R'.commitRecord)
  behind : ∀ i < 2, ∀ c, poss s i c → ∀ r, decodeRoot c = .ok (some r) → r.generation ≤ R.generation

/-- The root in a superblock. -/
def superWrites (R : SystemCatalogRoot) : ℕ → Block → Prop := fun j c => j < 2 ∧ c = encodeRoot R

/-- Writes that leave the records of a volume alone, but for superblocks with one of the two roots. -/
def Harmless (R R' : SystemCatalogRoot) (W : ℕ → Block → Prop) : Prop :=
  ∀ j c, W j c → (j < 2 ∧ (c = encodeRoot R ∨ c = encodeRoot R')) ∨ dataStart ≤ j

lemma Harmless.noWrite (R R' : SystemCatalogRoot) : Harmless R R' noWrite := fun _ _ h => h.elim

lemma Harmless.superWrites {R R' F : SystemCatalogRoot} (h : F = R ∨ F = R') : Harmless R R' (superWrites F) := by
  rintro j c ⟨hj, rfl⟩
  rcases h with rfl | rfl
  · exact .inl ⟨hj, .inl rfl⟩
  · exact .inl ⟨hj, .inr rfl⟩

variable {s s' : σ} {R R' : SystemCatalogRoot} {W : ℕ → Block → Prop}

lemma Anchored.evolves (h : Anchored s R R') (hW : Harmless R R' W) (he : Evolves W s s') : Anchored s' R R' where
  valid := by rw [he.count]; exact h.valid
  valid' := by rw [he.count]; exact h.valid'
  kin := h.kin
  next := h.next
  superblock i hi c hc := by
    rw [he.count]
    rcases he.poss i c hc with hc | hw
    · exact h.superblock i hi c hc
    · rcases hW i c hw with ⟨_, rfl | rfl⟩ | hd
      · exact ⟨R, decodeRoot_encodeRoot R h.valid.fits, h.valid, .refl R, .inr (.inl rfl)⟩
      · exact ⟨R', decodeRoot_encodeRoot R' h.valid'.fits, h.valid', h.kin.symm, .inr (.inr rfl)⟩
      · unfold dataStart commitStart at hd; omega
  commitSlot k hk c hc := by
    rcases he.poss _ c hc with hc | hw
    · exact h.commitSlot k hk c hc
    · have := hW _ c hw
      unfold dataStart commitStart commitSlots at this
      omega
  anchor := by
    rcases h.anchor with ha | ha
    · left
      intro c hc
      rcases he.poss _ c hc with hc | hw
      · exact ha c hc
      · have := hW _ c hw
        unfold dataStart commitStart commitSlots at this
        omega
    · right
      intro i hi c hc
      rcases he.poss i c hc with hc | hw
      · exact ha i hi c hc
      · rcases hW i c hw with ⟨_, rfl | rfl⟩ | hd
        · exact .inl (decodeRoot_encodeRoot R h.valid.fits)
        · exact .inr (decodeRoot_encodeRoot R' h.valid'.fits)
        · unfold dataStart commitStart at hd; omega

lemma Anchored.generation_le (h : Anchored s R R') : R.generation ≤ R'.generation := by
  rcases h.next with h | h
  · rw [h]
  · omega

/-- Once the commit record of `R'` is durable, the root is `R'`. -/
theorem Anchored.advance (h : Anchored s R R')
    (hc : ∀ c, poss s (commitStart + R'.generation % 2) c → decodeCommit c = .ok (some R'.commitRecord)) : Settled s R' where
  valid := h.valid'
  valid' := h.valid'
  kin := .refl R'
  next := .inl rfl
  superblock i hi c hp := by
    obtain ⟨r, hd, hv, hk, hr⟩ := h.superblock i hi c hp
    refine ⟨r, hd, hv, hk.trans h.kin, ?_⟩
    rcases h.next with rfl | hn
    · rcases hr with hr | hr | hr
      exacts [.inl hr, .inr (.inl hr), .inr (.inl hr)]
    · rcases hr with hr | rfl | hr
      exacts [.inl (by omega), .inl (by omega), .inr (.inl hr)]
  commitSlot k hk c hp := by
    refine (h.commitSlot k hk c hp).imp_right fun ⟨m, hd, hpar, hm⟩ => ⟨m, hd, hpar, ?_⟩
    rcases h.next with rfl | hn
    · rcases hm with hm | hm | hm
      exacts [.inl hm, .inr (.inl hm), .inr (.inl hm)]
    · rcases hm with hm | rfl | hm
      · exact .inl (by omega)
      · exact .inl (by simp [SystemCatalogRoot.commitRecord]; omega)
      · exact .inr (.inl hm)
  anchor := .inl hc

/-! ## Opening a volume -/

lemma wp_io {σ α : Type} {s : σ} {m : Op σ BlockError α} {Q : α → σ → Prop} {E : CatalogError → σ → Prop} :
    wp (io m) Q E s ↔ wp m Q (fun e => E (.block e)) s := wp_mapErr

/-- Reading a block and decoding it: the outcome is that of the volatile content, or an I/O error. -/
theorem wp_attempt_decode {α : Type} {ε : Type} (i : ℕ) (decode : Block → Except CatalogError α)
    (hs : Inv s) (hf : faithful s i) (hi : i < blockCount s) {E : ε → σ → Prop} :
    wp (Op.attempt (io (readBlock i) >>= fun b => Op.lift (decode b)))
      (fun x s' => Evolves noWrite s s' ∧
        (x = decode (view s i) ∨ (∃ e, x = .error (.block e)) ∧ ¬ Healthy s)) E s := by
  rw [wp_attempt, wp_bind, wp_io]
  refine wp_readBlock hs (fun b s' he hb => ?_) (fun e s' he hh => ?_)
  · rw [wp_lift, hb hf]
    exact ⟨fun a ha => ⟨he, .inl ha.symm⟩, fun e hd => ⟨he, .inl hd.symm⟩⟩
  · exact ⟨he, .inr ⟨⟨e, rfl⟩, fun h => hh h hi⟩⟩

/-- The record in a commit slot of the volatile content. -/
def commitAt (s : σ) (slot : ℕ) : Option CommitRecord :=
  match decodeCommit (view s (commitStart + slot)) with
  | .ok m => m
  | .error _ => none

/-- A read has failed: the store is as it was, and not healthy. -/
abbrev ReadFails (s : σ) (e : CatalogError) (s' : σ) : Prop := Evolves noWrite s s' ∧ (∃ b, e = .block b) ∧ ¬ Healthy s

lemma wp_findCommit (root : SystemCatalogRoot) (slots : List ℕ) (candidate : Option CommitRecord)
    (hs : Inv s) (hf : ∀ k ∈ slots, faithful s (commitStart + k)) (hn : ∀ k ∈ slots, commitStart + k < blockCount s) :
    wp (findCommit root candidate slots)
      (fun c s' => Evolves noWrite s s' ∧ c = newestCommit root candidate (slots.filterMap (commitAt s)))
      (ReadFails s) s := by
  induction slots generalizing s candidate with
  | nil => exact ⟨.refl _ _, rfl⟩
  | cons k slots ih =>
    refine wp_seq (wp_attempt_decode (commitStart + k) decodeCommit hs (hf k (by simp)) (hn k (by simp))) ?_
    rintro x s' ⟨he, hx⟩
    -- the rest of the loop runs on a store with the same content
    have hrest : ∀ cand, wp (findCommit root cand slots)
        (fun c s'' => Evolves noWrite s s'' ∧ c = newestCommit root cand (slots.filterMap (commitAt s)))
        (ReadFails s) s' := by
      intro cand
      have hat : commitAt s' = commitAt s := by unfold commitAt; rw [he.view_eq_of_noWrite]
      refine wp_mono (ih cand (he.inv hs) (fun k hk => he.faithful _ (hf k (by simp [hk])))
        (fun k hk => by rw [he.count]; exact hn k (by simp [hk]))) ?_ ?_
      · rintro c s'' ⟨he', rfl⟩
        exact ⟨he.trans he', by rw [hat]⟩
      · rintro e s'' ⟨he', hb, hh⟩
        exact ⟨he.trans he', hb, fun h => hh (he.healthy h)⟩
    rcases hx with rfl | ⟨⟨e, rfl⟩, hh⟩
    · have hcons : (k :: slots).filterMap (commitAt s) = (commitAt s k).toList ++ slots.filterMap (commitAt s) := by
        cases h : commitAt s k <;> simp [h]
      rw [hcons]
      unfold commitAt
      cases hd : decodeCommit (view s (commitStart + k)) with
      | error e =>
        obtain rfl : e = .corrupt := by
          unfold decodeCommit at hd
          dsimp only at hd
          split_ifs at hd <;> exact (Except.error.inj hd).symm
        exact hrest candidate
      | ok m =>
        cases m with
        | none => exact hrest candidate
        | some m => exact hrest (considerCommit root candidate m)
    · exact ⟨he, ⟨e, rfl⟩, hh⟩

/-- What `chooseSuperblock` picks when every superblock that could be read holds a root. -/
theorem chooseSuperblock_spec {P : SystemCatalogRoot → ℕ → Prop}
    {x y : Except CatalogError (Option SystemCatalogRoot)}
    (hx : (∃ r, x = .ok (some r) ∧ P r 0) ∨ ∃ e, x = .error (.block e))
    (hy : (∃ r, y = .ok (some r) ∧ P r 1) ∨ ∃ e, y = .error (.block e)) :
    (∃ r a, chooseSuperblock x y = .ok (r, a) ∧ a < 2 ∧ P r a) ∨
      ((∃ e, chooseSuperblock x y = .error (.block e)) ∧ (∃ e, x = .error (.block e))) := by
  rcases hx with ⟨a, rfl, ha⟩ | ⟨e, rfl⟩ <;> rcases hy with ⟨b, rfl, hb⟩ | ⟨e', rfl⟩
  · by_cases h : b.generation > a.generation
    · exact .inl ⟨b, 1, by simp [chooseSuperblock, h], by omega, hb⟩
    · exact .inl ⟨a, 0, by simp [chooseSuperblock, h], by omega, ha⟩
  · exact .inl ⟨a, 0, rfl, by omega, ha⟩
  · exact .inl ⟨b, 1, rfl, by omega, hb⟩
  · exact .inr ⟨⟨e, rfl⟩, e, rfl⟩

/-- The records that `open` reads before it decides lie inside of the store. -/
theorem SystemCatalogRoot.Valid.records_lt {n : ℕ} (h : R.Valid n) : 8 ≤ n := by
  have := h.systemEnd_le; have := h.system; have := h.systemStart
  unfold dataStart commitStart commitSlots at *
  omega

/-- The newest of the commit records that `open` prefers to the root `r`. -/
def foundCommit (s : σ) (r : SystemCatalogRoot) : Option CommitRecord :=
  newestCommit r none ((List.range commitSlots).filterMap (commitAt s))

/-- The root that `open` arrives at from the superblock `r`. -/
def arrival (s : σ) (r : SystemCatalogRoot) : SystemCatalogRoot := (foundCommit s r).elim r r.adopt

/-- **The decision of `open`.**  From a superblock `r` and the commit records of an anchored store, `open` arrives at `R`
or at `R'`; and at `R'` for sure if the commit record of `R'` is there to be seen. -/
theorem Anchored.decision (h : Anchored s R R') (hs : Inv s) {r : SystemCatalogRoot} {a : ℕ} (ha : a < 2)
    (hr : decodeRoot (view s a) = .ok (some r)) : (arrival s r = R ∨ arrival s r = R') ∧
      (decodeCommit (view s (commitStart + R'.generation % 2)) = .ok (some R'.commitRecord) → arrival s r = R') := by
  have hpv : ∀ i, poss s i (view s i) := fun i => LawfulStore.poss_view i hs
  -- the superblock
  obtain ⟨r', hd, hv, hk, hgen⟩ := h.superblock a ha _ (hpv a)
  obtain rfl : r' = r := by rw [hr] at hd; simpa using hd.symm
  have hok : validateCommit r' R.commitRecord = .ok () := h.valid.validateCommit_eq hk
  have hok' : validateCommit r' R'.commitRecord = .ok () := h.valid'.validateCommit_eq (hk.trans h.kin)
  -- the commit records
  have hmem : ∀ m, m ∈ (range commitSlots).filterMap (commitAt s) →
      m.generation < R.generation ∨ m = R.commitRecord ∨ m = R'.commitRecord := by
    intro m hm
    obtain ⟨k, hk, hat⟩ := mem_filterMap.mp hm
    have hk : k < 2 := by simpa [commitSlots] using hk
    unfold commitAt at hat
    rcases h.commitSlot k hk _ (hpv _) with hd | ⟨m', hd, _, hm'⟩ <;> rw [hd] at hat
    · cases hat
    · obtain rfl : m' = m := by simpa using hat
      exact hm'
  have hfound : ∀ F : SystemCatalogRoot,
      decodeCommit (view s (commitStart + F.generation % 2)) = .ok (some F.commitRecord) →
      F.commitRecord ∈ (range commitSlots).filterMap (commitAt s) := by
    intro F hF
    refine mem_filterMap.mpr ⟨F.generation % 2, ?_, by unfold commitAt; rw [hF]⟩
    exact mem_range.mpr (Nat.mod_lt _ Nat.zero_lt_two)
  obtain ⟨hnone, hsome⟩ := newestCommit_spec r' ((range commitSlots).filterMap (commitAt s)) [] none
    (by simp) (by simp)
  have hle := h.generation_le
  -- `R` is not behind what was read: its commit record is there, or the superblock is `R` or `R'` itself
  have hanchor : R.commitRecord ∈ (range commitSlots).filterMap (commitAt s) ∨ r' = R ∨ r' = R' := by
    rcases h.anchor with hA | hA
    · exact .inl (hfound R (hA _ (hpv _)))
    · right
      rcases hA a ha _ (hpv a) with hA | hA <;> rw [hr] at hA
      · exact .inl (by simpa using hA)
      · exact .inr (by simpa using hA)
  rcases hc : foundCommit s r' with _ | m
  · -- no commit record is newer than the superblock
    have hF : arrival s r' = r' := by rw [arrival, hc, Option.elim]
    have hno := hnone hc
    have hseen : decodeCommit (view s (commitStart + R'.generation % 2)) = .ok (some R'.commitRecord) → r' = R' := by
      intro hd
      have hR' : ¬ R'.generation > r'.generation := fun hg => hno _ (hfound R' hd) ⟨hg, hok'⟩
      rcases hgen with hg | rfl | hg
      · omega
      · exact (h.next.resolve_right (by omega)).symm
      · exact hg
    refine ⟨?_, fun hd => hF.trans (hseen hd)⟩
    rw [hF]
    rcases hanchor with hA | hA
    · have hR : ¬ R.generation > r'.generation := fun hg => hno _ hA ⟨hg, hok⟩
      rcases hgen with hg | hg
      · omega
      · exact hg
    · exact hA
  · have hF : arrival s r' = r'.adopt m := by rw [arrival, hc, Option.elim]
    obtain ⟨hm, hsup, hmax⟩ := hsome m hc
    have hnew : ¬ m.generation < R.generation := by
      intro hlt
      rcases hanchor with hA | hA
      · have hgt : R.generation > r'.generation := by have := hsup.1; omega
        have : R.generation ≤ m.generation := hmax _ hA ⟨hgt, hok⟩
        omega
      · have := hsup.1
        rcases hA with rfl | rfl <;> omega
    rcases (hmem m hm).resolve_left hnew with rfl | rfl
    · have hFR : arrival s r' = R := hF.trans hk
      refine ⟨.inl hFR, fun hd => ?_⟩
      rcases h.next with hn | hn
      · rw [hFR, hn]
      have hgt : R'.generation > r'.generation := by
        have : R.generation > r'.generation := hsup.1
        omega
      have : R'.generation ≤ R.generation := hmax _ (hfound R' hd) ⟨hgt, hok'⟩
      omega
    · have hFR : arrival s r' = R' := hF.trans (hk.trans h.kin)
      exact ⟨.inr hFR, fun _ => hFR⟩

/-- Writing a superblock, flushing and reading it back, with whatever comes after it. -/
theorem wp_installSuperblock {target : ℕ} (F : SystemCatalogRoot) (hs : Inv s) (ht : target < 2)
    (hn : target < blockCount s) {α : Type} {k : Op σ CatalogError α} {Q : α → σ → Prop} {E : CatalogError → σ → Prop}
    (hk : ∀ s', Evolves (superWrites F) s s' → (∀ i, Stable s' i) → view s' target = encodeRoot F → wp k Q E s')
    (hE : ∀ b s', Evolves (superWrites F) s s' → ¬ Healthy s → E (.block b) s') :
    wp (do writeSuperblock target F; io flush; verifySuperblock target F; k) Q E s := by
  rw [wp_bind, writeSuperblock, wp_io]
  refine wp_writeBlock hs (fun s1 e1 hv => ?_) (fun e s1 e1 hh => hE e s1 (e1.of_noWrite _) fun h => hh h hn)
  have e1 : Evolves (superWrites F) s s1 := e1.mono (by rintro j c ⟨rfl, rfl⟩; exact ⟨ht, rfl⟩)
  rw [wp_bind, wp_io]
  refine wp_flush (e1.inv hs) (fun s2 e2 hst => ?_)
    (fun e s2 e2 hh => hE e s2 (e1.trans (e2.of_noWrite _)) fun h => hh (e1.healthy h))
  have e2' := e1.trans (e2.of_noWrite _)
  have hv2 : view s2 target = encodeRoot F := by rw [e2.view_eq_of_noWrite, hv]
  rw [wp_bind, verifySuperblock, wp_bind, wp_io]
  refine wp_readBlockUncached (e2'.inv hs) (fun s3 e3 => ?_)
    (fun e s3 e3 hh => hE e s3 (e2'.trans (e3.of_noWrite _)) fun h => hh (e2'.healthy h) (by rw [e2'.count]; exact hn))
  rw [if_neg (by simp [hv2])]
  exact hk s3 (e2'.trans (e3.of_noWrite _)) (fun i => (hst i).evolves e3 fun _ => id) (by rw [e3.view_eq_of_noWrite, hv2])

/-- One of the superblocks holds the root `r`. -/
def Recorded (s : σ) (r : SystemCatalogRoot) : Prop := ∃ a < 2, decodeRoot (view s a) = .ok (some r)

/-- **Opening a volume** with well-formed roots in both superblocks, under any I/O failures.  It returns what one of them
leads to, and fails only with an I/O error; at most it writes the root it found into a superblock. -/
theorem wp_openVolume_of_recorded (hs : Inv s) (hf : ∀ i < 4, faithful s i)
    (hsup : ∀ i < 2, ∃ r, decodeRoot (view s i) = .ok (some r) ∧ r.Valid (blockCount s)) :
    wp openVolume
      (fun v s' => v.activeSuperblock < 2 ∧ (∃ r, Recorded s r ∧ v.root = arrival s r) ∧
        ((Evolves noWrite s s' ∧ decodeRoot (view s v.activeSuperblock) = .ok (some v.root)) ∨
          (Evolves (superWrites v.root) s s' ∧ ∀ i, Stable s' i)))
      (fun e s' => (∃ b, e = .block b) ∧ ¬ Healthy s ∧ ∃ r, Recorded s r ∧ Evolves (superWrites (arrival s r)) s s') s := by
  obtain ⟨r0, hr0, hv0⟩ := hsup 0 (by omega)
  have hn : 8 ≤ blockCount s := hv0.records_lt
  unfold openVolume
  rw [wp_bind, wp_get, wp_bind, wp_lift, hv0.validateCapacity_eq]
  refine ⟨fun _ hd => ?_, nofun⟩
  obtain rfl := Except.ok.inj hd
  -- the two superblocks
  refine wp_step (wp_attempt_decode superblockA decodeRoot hs (hf 0 (by omega)) (by unfold superblockA; omega))
    ?_ (fun _ _ h => h)
  rintro x s1 ⟨e1, hx⟩
  refine wp_seq (wp_attempt_decode superblockB decodeRoot (e1.inv hs) (e1.faithful _ (hf 1 (by omega)))
    (by rw [e1.count]; unfold superblockB; omega)) ?_
  rintro y s2 ⟨e2, hy⟩
  have e2 := e1.trans e2
  rw [e1.view_eq_of_noWrite] at hy
  have hh : (∃ e, x = .error (.block e)) → ¬ Healthy s := by
    rintro ⟨e, rfl⟩
    rcases hx with hx | hx
    · rw [show superblockA = 0 from rfl, hr0] at hx
      cases hx
    · exact hx.2
  have hchoose := chooseSuperblock_spec (P := fun r a => decodeRoot (view s a) = .ok (some r))
    (hx.imp (fun hx => ⟨r0, hx.trans hr0, hr0⟩) And.left)
    (hy.imp (fun hy => let ⟨r, hr, _⟩ := hsup 1 (by omega); ⟨r, hy.trans hr, hr⟩) And.left)
  rw [wp_bind, wp_lift]
  rcases hchoose with ⟨r, a, hc, ha, hr⟩ | ⟨⟨e, hc⟩, hxe⟩
  swap
  · rw [hc]
    refine ⟨fun _ h => (by cases h), fun e' he' => ?_⟩
    obtain rfl := Except.error.inj he'
    exact ⟨⟨e, rfl⟩, hh hxe, r0, ⟨0, by omega, hr0⟩, e2.of_noWrite _⟩
  rw [hc]
  refine ⟨fun ra hra => ?_, nofun⟩
  obtain rfl : (r, a) = ra := by simpa using hra
  obtain ⟨r', hd', hv⟩ := hsup a ha
  obtain rfl : r' = r := by rw [hr] at hd'; simpa using hd'.symm
  rw [wp_bind, wp_lift, hv.validateRoot_eq]
  refine ⟨fun _ _ => ?_, nofun⟩
  -- the commit records
  have hslots : ∀ k ∈ range commitSlots, k < 2 := fun k hk => by simpa [commitSlots] using hk
  refine wp_step (wp_findCommit r' (range commitSlots) none (e2.inv hs)
    (fun k hk => e2.faithful _ (hf _ (by have := hslots k hk; unfold commitStart; omega)))
    (fun k hk => by rw [e2.count]; have := hslots k hk; unfold commitStart; omega)) ?_ ?_
  swap
  · rintro e s3 ⟨e3, hb, hh3⟩
    exact ⟨hb, fun h => hh3 (e2.healthy h), r', ⟨a, ha, hr⟩, (e2.trans e3).of_noWrite _⟩
  rintro c s3 ⟨e3, rfl⟩
  have e3 := e2.trans e3
  have hat : commitAt s2 = commitAt s := by unfold commitAt; rw [e2.view_eq_of_noWrite]
  rw [hat, ← foundCommit]
  cases hc : foundCommit s r' with
  | none => exact ⟨ha, ⟨r', ⟨a, ha, hr⟩, by rw [arrival, hc, Option.elim]⟩, .inl ⟨e3, hr⟩⟩
  | some m =>
    have hF : r'.adopt m = arrival s r' := by rw [arrival, hc, Option.elim]
    have ht : (if a = 0 then superblockB else superblockA) < 2 := by unfold superblockA superblockB; split <;> omega
    dsimp only
    rw [hF]
    refine wp_installSuperblock _ (e3.inv hs) ht (by rw [e3.count]; omega)
      (fun s4 e4 hst _ => ⟨?_, ⟨r', ⟨a, ha, hr⟩, rfl⟩, .inr ⟨(e3.of_noWrite _).trans e4, hst⟩⟩)
      (fun b s4 e4 hh => ⟨⟨b, rfl⟩, fun h => hh (e3.healthy h), r', ⟨a, ha, hr⟩, (e3.of_noWrite _).trans e4⟩)
    show a ^^^ 1 < 2
    interval_cases a <;> decide

/-- Opening a volume on an anchored store returns `R` or `R'`. -/
theorem wp_openVolume (h : Anchored s R R') (hs : Inv s) (hf : ∀ i < 4, faithful s i) :
    wp openVolume
      (fun v s' => (v.root = R ∨ v.root = R') ∧ v.activeSuperblock < 2 ∧
        (decodeCommit (view s (commitStart + R'.generation % 2)) = .ok (some R'.commitRecord) → v.root = R') ∧
        ((Evolves noWrite s s' ∧ decodeRoot (view s v.activeSuperblock) = .ok (some v.root)) ∨
          (Evolves (superWrites v.root) s s' ∧ ∀ i, Stable s' i)))
      (fun e s' => (∃ b, e = .block b) ∧ ¬ Healthy s ∧ ∃ F, (F = R ∨ F = R') ∧ Evolves (superWrites F) s s') s := by
  have hsup : ∀ i < 2, ∃ r, decodeRoot (view s i) = .ok (some r) ∧ r.Valid (blockCount s) := fun i hi =>
    let ⟨r, hd, hv, _⟩ := h.superblock i hi _ (LawfulStore.poss_view i hs)
    ⟨r, hd, hv⟩
  refine wp_mono (wp_openVolume_of_recorded hs hf hsup) ?_ ?_
  · rintro v s' ⟨ha, ⟨r, ⟨a, ha', hr⟩, hroot⟩, he⟩
    obtain ⟨hF, hseen⟩ := h.decision hs ha' hr
    rw [← hroot] at hF hseen
    exact ⟨hF, ha, hseen, he⟩
  · rintro e s' ⟨hb, hh, r, ⟨a, ha', hr⟩, he⟩
    exact ⟨hb, hh, arrival s r, (h.decision hs ha' hr).1, he⟩

/-- Opening a volume whose root is decided. -/
theorem wp_openVolume_settled (h : Settled s R) (hs : Inv s) (hf : ∀ i < 4, faithful s i) :
    wp openVolume
      (fun v s' => v.root = R ∧ v.activeSuperblock < 2 ∧ Evolves (superWrites R) s s' ∧ Settled s' R)
      (fun e s' => (∃ b, e = .block b) ∧ ¬ Healthy s ∧ Evolves (superWrites R) s s' ∧ Settled s' R) s := by
  have keep : ∀ s', Evolves (superWrites R) s s' → Settled s' R :=
    fun s' he => h.evolves (.superWrites (.inl rfl)) he
  refine wp_mono (wp_openVolume h hs hf) ?_ ?_
  · rintro v s' ⟨hr, ha, -, he⟩
    obtain rfl : v.root = R := hr.elim id id
    have he : Evolves (superWrites v.root) s s' := he.elim (fun h => h.1.of_noWrite _) And.left
    exact ⟨rfl, ha, he, keep s' he⟩
  · rintro e s' ⟨hb, hh, F, hF, he⟩
    obtain rfl : F = R := hF.elim id id
    exact ⟨hb, hh, he, keep s' he⟩

/-- Opening a volume between two roots decides for the new one: the flush that follows its superblock makes the commit
record durable as well. -/
theorem wp_openVolume_torn (h : Torn s R R') (hs : Inv s) (hf : ∀ i < 4, faithful s i) :
    wp openVolume
      (fun v s' => v.root = R' ∧ v.activeSuperblock < 2 ∧ Evolves (superWrites R') s s' ∧ Settled s' R')
      (fun e s' => (∃ b, e = .block b) ∧ ¬ Healthy s ∧ (∃ F, Evolves (superWrites F) s s') ∧ Anchored s' R R') s := by
  have keep : ∀ F s', (F = R ∨ F = R') → Evolves (superWrites F) s s' → Anchored s' R R' :=
    fun F s' hF he => h.anchored.evolves (.superWrites hF) he
  refine wp_mono (wp_openVolume h.anchored hs hf) ?_ ?_
  · rintro v s' ⟨-, ha, hseen, he⟩
    have hv := hseen h.seen
    rw [hv] at he
    rcases he with ⟨-, hd⟩ | ⟨he, hst⟩
    · -- no superblock has the new root yet
      have := h.behind _ ha _ (LawfulStore.poss_view _ hs) _ hd
      have := h.next
      omega
    · refine ⟨hv, ha, he, (keep R' s' (.inr rfl) he).advance fun c hc => ?_⟩
      rw [hst _ c hc, he.view_eq (fun c hw => by have := hw.1; unfold commitStart at this; omega)]
      exact h.seen
  · rintro e s' ⟨hb, hh, F, hF, he⟩
    exact ⟨hb, hh, ⟨F, he⟩, keep F s' hF he⟩

end LogOS.Storage.Catalog
