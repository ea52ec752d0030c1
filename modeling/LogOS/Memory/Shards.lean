import LogOS.Memory.Frames
import Mathlib.Tactic.IntervalCases

/-!
# Shards of the frame manager

The allocator for several processors cuts the frames into shards and guards each with a lock of its own.  The cuts are at the
borders of bitmap words, so two shards have no record and no bitmap word in common.  A summary word stands for 64 bitmap words:
two shards share one unless the cut is at a multiple of 4096 frames.
-/

namespace LogOS.Memory

open Lib Prog List BitVec Bool Word Nat

def maxFrameShards : ℕ := 4

def divCeil (n d : ℕ) : ℕ := (n + d - 1) / d

/-- The bounds of a shard, as `finish_initialize` sets them. -/
def shardFirst (count shard : ℕ) : ℕ := divCeil (divCeil (count * shard) maxFrameShards) 64 * 64

def shardLast (count shard : ℕ) : ℕ :=
  min (if shard + 1 = maxFrameShards then count else divCeil (divCeil (count * (shard + 1)) maxFrameShards) 64 * 64) count

/-- The shard holds the slot. -/
def InShard (count shard slot : ℕ) : Prop := shardFirst count shard ≤ slot ∧ slot < shardLast count shard

instance (count shard slot : ℕ) : Decidable (InShard count shard slot) := inferInstanceAs (Decidable (_ ∧ _))

/-! ## The cuts -/

variable {shard shard' count : ℕ}

lemma shardLast_le (count shard : ℕ) : shardLast count shard ≤ count := min_le_right _ _

lemma shardFirst_mono (count : ℕ) (h : shard ≤ shard') : shardFirst count shard ≤ shardFirst count shard' := by
  have hmul : count * shard ≤ count * shard' := mul_le_mul_left count h
  unfold shardFirst divCeil maxFrameShards
  omega

lemma shardLast_eq (h : shard + 1 < maxFrameShards) : shardLast count shard = min (shardFirst count (shard + 1)) count := by
  rw [shardLast, if_neg (Nat.ne_of_lt h)]
  rfl

lemma shardLast_le_shardFirst (count : ℕ) (h : shard < shard') (h' : shard' < maxFrameShards) :
    shardLast count shard ≤ shardFirst count shard' := by
  rw [shardLast_eq (by omega)]
  exact le_trans (min_le_left _ _) (shardFirst_mono count h)

lemma exists_shard {slot : ℕ} (h : slot < count) : ∃ shard < maxFrameShards, InShard count shard slot := by
  -- the last shard that starts at or before the slot
  have hzero : shardFirst count 0 ≤ slot := by
    have hfirst : shardFirst count 0 = 0 := by
      rw [shardFirst, Nat.mul_zero]
      rfl
    rw [hfirst]
    exact Nat.zero_le slot
  have hlast : shardLast count 3 = count := Nat.min_self count
  by_cases h1 : shardFirst count 1 ≤ slot
  · by_cases h2 : shardFirst count 2 ≤ slot
    · by_cases h3 : shardFirst count 3 ≤ slot
      · exact ⟨3, by decide, h3, by rwa [hlast]⟩
      · refine ⟨2, by decide, h2, ?_⟩
        exact Nat.lt_min.mpr ⟨Nat.lt_of_not_le h3, h⟩
    · refine ⟨1, by decide, h1, ?_⟩
      exact Nat.lt_min.mpr ⟨Nat.lt_of_not_le h2, h⟩
  · refine ⟨0, by decide, hzero, ?_⟩
    exact Nat.lt_min.mpr ⟨Nat.lt_of_not_le h1, h⟩

lemma shard_unique {slot : ℕ} (hshard : shard < maxFrameShards) (hshard' : shard' < maxFrameShards)
    (h : InShard count shard slot) (h' : InShard count shard' slot) : shard = shard' := by
  rcases Nat.lt_trichotomy shard shard' with hlt | heq | hgt
  · have := shardLast_le_shardFirst count hlt hshard'
    exact absurd (lt_of_lt_of_le h.2 (le_trans this h'.1)) (lt_irrefl slot)
  · exact heq
  · have := shardLast_le_shardFirst count hgt hshard
    exact absurd (lt_of_lt_of_le h'.2 (le_trans this h.1)) (lt_irrefl slot)

/-! ## Bits -/

variable {index : ℕ}

lemma getLsbD_bitsFrom (k i : ℕ) (h : (bitsFrom k).getLsbD i = true) : k ≤ i := by
  rw [bitsFrom, getLsbD_shiftLeft] at h
  simp only [and_eq_true, not_eq_true', decide_eq_false_iff_not, not_lt] at h
  exact h.1.2

lemma getLsbD_bitsBelow {k : ℕ} (hk : k < 64) (i : ℕ) (h : (bitsBelow k).getLsbD i = true) : i < k := by
  have hpow : 2 ^ k < 2 ^ 64 := Nat.pow_lt_pow_right (by decide) hk
  have hpos : 0 < 2 ^ k := Nat.two_pow_pos k
  have hvalue : (bitsBelow k).toNat = 2 ^ k - 1 := by
    have hshift : (1#64 <<< k).toNat = 2 ^ k := by
      rw [toNat_shiftLeft, toNat_ofNat, Nat.shiftLeft_eq, Nat.mod_eq_of_lt (by decide : 1 < 2 ^ 64), one_mul,
        Nat.mod_eq_of_lt hpow]
    rw [bitsBelow, toNat_sub, toNat_ofNat]
    omega
  rw [getLsbD, hvalue, Nat.testBit_two_pow_sub_one] at h
  exact of_decide_eq_true h

lemma trailingZeros_spec {bits : BitVec 64} (h : bits ≠ 0#64) :
    trailingZeros bits < 64 ∧ bits.getLsbD (trailingZeros bits) = true := by
  rcases hfind : (range 64).find? bits.getLsbD with _ | i
  · refine absurd (eq_of_getLsbD_eq fun i hi => ?_) h
    have := find?_eq_none.mp hfind i (mem_range.mpr hi)
    rw [getLsbD_zero]
    exact eq_false_iff.mpr this
  · have hvalue : trailingZeros bits = i := by rw [trailingZeros, hfind, Option.getD_some]
    rw [hvalue]
    exact ⟨mem_range.mp (mem_of_find?_eq_some hfind), find?_some hfind⟩

lemma of_summaryInRange {first last i : ℕ} {words : BitVec 64} (hi : i < 64) (hlast : 0 < last)
    (hfrom : first / 64 / 64 ≤ index) (hto : index ≤ (last - 1) / 64 / 64)
    (h : (summaryInRange first last index words).getLsbD i = true) :
    first / 64 ≤ index * 64 + i ∧ 64 * (index * 64 + i) < last := by
  have hlow : index = first / 64 / 64 → first / 64 % 64 ≤ i := by
    intro heq
    refine getLsbD_bitsFrom _ i ?_
    unfold summaryInRange at h
    dsimp only at h
    split at h <;> simp only [getLsbD_and, and_eq_true] at h
    · exact h.1.2
    · exact h.2
  have hhigh : index = (last - 1) / 64 / 64 → (last - 1) / 64 % 64 ≠ 63 → i < (last - 1) / 64 % 64 + 1 := by
    intro heq hne
    refine getLsbD_bitsBelow (by omega) i ?_
    unfold summaryInRange at h
    rw [if_pos (⟨heq, hne⟩), getLsbD_and,
      and_eq_true] at h
    exact h.2
  omega

lemma of_bitsInRange {first last i : ℕ} {bits : BitVec 64} (hi : i < 64) (hfrom : first / 64 ≤ index)
    (hto : 64 * index < last) (h : (bitsInRange first last index bits).getLsbD i = true) :
    first ≤ index * 64 + i ∧ index * 64 + i < last := by
  have hlow : index = first / 64 → first % 64 ≤ i := by
    intro heq
    refine getLsbD_bitsFrom _ i ?_
    unfold bitsInRange at h
    dsimp only at h
    split at h <;> simp only [getLsbD_and, and_eq_true] at h
    · exact h.1.2
    · exact h.2
  have hhigh : index = (last - 1) / 64 → last % 64 ≠ 0 → i < last % 64 := by
    intro heq hne
    refine getLsbD_bitsBelow (mod_lt _ (by decide)) i ?_
    unfold bitsInRange at h
    rw [if_pos (⟨heq, hne⟩), getLsbD_and, and_eq_true] at h
    exact h.2
  omega

/-! ## The words of a range -/

/-- The words that stand for frames of the range. -/
def Covers (first last : ℕ) : Word → Prop
  | .free index => first / 64 ≤ index ∧ 64 * index < last
  | .summary index => first / 4096 ≤ index ∧ 4096 * index < last
  | .record slot => first ≤ slot ∧ slot < last

section Range

variable {first last : ℕ}

lemma uses_searchWords {words : BitVec 64}
    (h : ∀ i < 64, words.getLsbD i = true → first / 64 ≤ index * 64 + i ∧ 64 * (index * 64 + i) < last) :
    Uses (Covers first last) (fun result => ∀ slot ∈ result, first ≤ slot ∧ slot < last) (searchWords first last index words) := by
  fun_induction searchWords first last index words with
  | case1 => exact uses_pure nofun
  | case2 words hwords wordIndex ih =>
    obtain ⟨hlt, hset⟩ := trailingZeros_spec hwords
    have hword := h _ hlt hset
    refine (uses_get (a := free _) hword).bind fun bits _ => ?_
    dsimp only
    split
    · rename_i hbits
      obtain ⟨hlt', hset'⟩ := trailingZeros_spec hbits
      have hslot := of_bitsInRange hlt' hword.1 hword.2 hset'
      refine uses_pure fun slot hmem => ?_
      obtain rfl := Option.some.inj hmem
      exact hslot
    · refine ih fun i hi hbit => h i hi ?_
      rw [getLsbD_and, and_eq_true] at hbit
      exact hbit.1

lemma uses_searchSummaries (hlast : 0 < last) (remaining : ℕ) (hfrom : first / 64 / 64 ≤ index)
    (hto : index + remaining ≤ (last - 1) / 64 / 64 + 1) :
    Uses (Covers first last) (fun result => ∀ slot ∈ result, first ≤ slot ∧ slot < last)
      (searchSummaries first last remaining index) := by
  induction remaining generalizing index with
  | zero => exact uses_pure nofun
  | succ remaining ih =>
    have hindex : Covers first last (.summary index) := by
      constructor <;> omega
    refine (uses_get hindex).bind fun words _ => ?_
    refine (uses_searchWords fun i hi hbit => of_summaryInRange hi hlast hfrom (by omega) hbit).bind fun result hresult => ?_
    cases result with
    | some slot => exact uses_pure hresult
    | none => exact ih (by omega) (by omega)

lemma uses_findFreeSlot (h : first ≤ last) :
    Uses (Covers first last) (fun result => ∀ slot ∈ result, first ≤ slot ∧ slot < last) (findFreeSlot first last) := by
  unfold findFreeSlot
  split
  · exact uses_pure nofun
  · exact uses_searchSummaries (by omega) _ (le_refl _) (by omega)

variable {slot : ℕ}

section

variable (hfirst : first ≤ slot) (hlast : slot < last)
include hfirst hlast

lemma covers_of_slot :
    Covers first last (.free (slot / 64)) ∧ Covers first last (.summary (slot / 64 / 64)) ∧ Covers first last (.record slot) := by
  refine ⟨⟨?_, ?_⟩, ⟨?_, ?_⟩, hfirst, hlast⟩ <;> omega

lemma uses_setFree : Uses (Covers first last) (fun _ => True) (setFree slot) := by
  obtain ⟨hfree, hsummary, -⟩ := covers_of_slot hfirst hlast
  exact (uses_get hfree).bind fun _ _ => (uses_put _ hfree).bind fun _ _ =>
    (uses_get hsummary).bind fun _ _ => uses_put _ hsummary

lemma uses_clearFree : Uses (Covers first last) (fun _ => True) (clearFree slot) := by
  obtain ⟨hfree, hsummary, -⟩ := covers_of_slot hfirst hlast
  refine (uses_get hfree).bind fun _ _ => (uses_put _ hfree).bind fun _ _ =>
    (uses_get hfree).bind fun bits _ => ?_
  split
  · exact (uses_get hsummary).bind fun _ _ => uses_put _ hsummary
  · exact uses_pure trivial

end

namespace Layout

variable {l : Layout}

/-- The frame that is found for a slot has that slot. -/
theorem searchRun_spec {low high : ℕ} {id : FrameId} (h : l.searchRun slot low high = some id) : l.slotForId id = some slot := by
  fun_induction searchRun l slot low high with
  | case1 => cases h
  | case2 _ _ _ _ _ _ _ ih | case3 _ _ _ _ _ _ _ _ ih => exact ih h
  | case4 low high hlt middle run hrun hfrom hto =>
    unfold FrameId.new at h
    split at h
    · cases h
    obtain rfl := Option.some.inj h
    have hroom : slot - run.firstSlot < run.pages := by omega
    have hback : run.firstSlot + (slot - run.firstSlot) = slot := by omega
    simp only [slotForId]
    rw [hrun]
    dsimp only
    rw [if_pos hroom, hback]
  | case5 => cases h

lemma uses_leaseOf (hfirst : first ≤ slot) (hlast : slot < last) (lease : FrameAddress → FrameId → FrameLease) :
    Uses (Covers first last) (fun _ => True) (l.leaseOf slot lease) := by
  obtain ⟨-, -, hrecord⟩ := covers_of_slot hfirst hlast
  unfold leaseOf
  split
  · exact uses_pure trivial
  rename_i id hid
  have hslot : l.slotForId id = some slot := searchRun_spec hid
  have haddress : Uses (Covers first last) (fun _ => True) (l.address id) := by
    unfold address
    rw [hslot]
    split
    · rename_i found _ heq _
      obtain rfl := Option.some.inj heq
      dsimp only
      split
      · exact (uses_get hrecord).bind fun _ _ => uses_pure trivial
      · exact uses_pure trivial
    · exact uses_pure trivial
  refine haddress.bind fun result _ => ?_
  cases result <;> exact uses_pure trivial

lemma uses_tryAllocInRange (owner : ℕ) (state : FrameState) :
    Uses (Covers first last) (fun _ => True) (l.tryAllocInRange owner state first last) := by
  unfold tryAllocInRange
  split
  · exact uses_pure trivial
  refine (uses_findFreeSlot (by omega)).bind fun result hresult => ?_
  cases result with
  | none => exact uses_pure trivial
  | some slot =>
    obtain ⟨hfirst, hlast⟩ := hresult slot rfl
    obtain ⟨-, -, hrecord⟩ := covers_of_slot hfirst hlast
    exact (uses_clearFree hfirst hlast).bind fun _ _ => (uses_get hrecord).bind fun _ _ =>
      (uses_put _ hrecord).bind fun _ _ => uses_leaseOf hfirst hlast _

variable {lease : FrameLease} (hfirst : first ≤ lease.slot) (hlast : lease.slot < last)
include hfirst hlast

lemma uses_validateLease :
    Uses (Covers first last) (fun result => ∀ slot, result = .ok slot → slot = lease.slot) (l.validateLease lease) := by
  obtain ⟨-, -, hrecord⟩ := covers_of_slot hfirst hlast
  unfold validateLease
  split
  · refine (uses_get hrecord).bind fun record _ => uses_pure fun slot hok => ?_
    unfold checkLease at hok
    repeat' split at hok
    all_goals cases hok
    rfl
  · exact uses_pure nofun

lemma uses_free : Uses (Covers first last) (fun _ => True) (l.free lease) := by
  obtain ⟨-, -, hrecord⟩ := covers_of_slot hfirst hlast
  refine (uses_validateLease hfirst hlast).bind fun result hresult => ?_
  cases result with
  | error => exact uses_pure trivial
  | ok slot =>
    obtain rfl := hresult slot rfl
    have hrelease : Uses (Covers first last) (fun _ => True) (releaseSlot lease.slot) :=
      (uses_get hrecord).bind fun _ _ => (uses_put _ hrecord).bind fun _ _ =>
        uses_setFree hfirst hlast
    exact hrelease.bind fun _ _ => uses_pure trivial

lemma uses_validate : Uses (Covers first last) (fun _ => True) (l.validate lease) := by
  refine (uses_validateLease hfirst hlast).bind fun result _ => ?_
  cases result <;> exact uses_pure trivial

lemma uses_refresh : Uses (Covers first last) (fun _ => True) (l.refresh lease) := by
  obtain ⟨-, -, hrecord⟩ := covers_of_slot hfirst hlast
  refine (uses_validateLease hfirst hlast).bind fun result hresult => ?_
  cases result with
  | error => exact uses_pure trivial
  | ok slot =>
    obtain rfl := hresult slot rfl
    exact (uses_get hrecord).bind fun _ _ => (uses_put _ hrecord).bind fun _ _ =>
      uses_leaseOf hfirst hlast _

end Layout

end Range

/-! ## Operations of a shard -/

/-- What is done under the lock of one shard. -/
inductive ShardOp where
  | tryAlloc (owner : ℕ) (state : FrameState)
  | free (lease : FrameLease)
  | validate (lease : FrameLease)
  | refresh (lease : FrameLease)

/-- The operation is one of the shard: what it is about lies in the shard. -/
def ShardOp.Of (count shard : ℕ) : ShardOp → Prop
  | .tryAlloc _ _ => True
  | .free lease | .validate lease | .refresh lease => InShard count shard lease.slot

/-- The operation under the lock of the shard; `free` and `validate` return no lease. -/
def ShardOp.perform (l : Layout) (shard : ℕ) : ShardOp → FrameProg (Except FrameError (Option FrameLease))
  | .tryAlloc owner state => do
    let result ← l.tryAllocInRange owner state (shardFirst l.frameCount shard) (shardLast l.frameCount shard)
    return result.map some
  | .free lease => do
    let result ← l.free lease
    return result.map fun _ => none
  | .validate lease => do
    let result ← l.validate lease
    return result.map fun _ => none
  | .refresh lease => do
    let result ← l.refresh lease
    return result.map some

/-- The words of the shard. -/
abbrev ShardWords (count shard : ℕ) : Word → Prop := Covers (shardFirst count shard) (shardLast count shard)

lemma uses_perform (l : Layout) {op : ShardOp} (h : op.Of l.frameCount shard) :
    Uses (ShardWords l.frameCount shard) (fun _ => True) (op.perform l shard) := by
  cases op with
  | tryAlloc owner state => exact (Layout.uses_tryAllocInRange owner state).bind fun _ _ => uses_pure trivial
  | free lease => exact (Layout.uses_free h.1 h.2).bind fun _ _ => uses_pure trivial
  | validate lease => exact (Layout.uses_validate h.1 h.2).bind fun _ _ => uses_pure trivial
  | refresh lease => exact (Layout.uses_refresh h.1 h.2).bind fun _ _ => uses_pure trivial

/-- Two shards share no bitmap word and no record. -/
theorem shared_word (hshard : shard < maxFrameShards) (hshard' : shard' < maxFrameShards)
    (hne : shard ≠ shard') {word : Word} (h : ShardWords count shard word) (h' : ShardWords count shard' word) :
    ∃ index, word = .summary index := by
  wlog hlt : shard < shard' generalizing shard shard'
  · exact this hshard' hshard hne.symm h' h (by omega)
  have hcut := shardLast_le_shardFirst count hlt hshard'
  have halign : 64 ∣ shardFirst count shard' := Dvd.intro_left _ rfl
  cases word with
  | summary index => exact ⟨index, rfl⟩
  | free index =>
    obtain ⟨-, hbefore⟩ := h
    obtain ⟨hafter, -⟩ := h'
    omega
  | record slot =>
    obtain ⟨-, hbefore⟩ := h
    obtain ⟨hafter, -⟩ := h'
    omega

/-- Where the frames, rounded up to whole bitmap words, fill four groups of whole summary words, the cuts are at the borders of
summary words. -/
theorem dvd_shardFirst_of_aligned (h : 4096 * maxFrameShards ∣ divCeil count 64 * 64)
    (hshard : shard < maxFrameShards) : 4096 ∣ shardFirst count shard := by
  obtain ⟨m, hm⟩ := h
  have hcut : divCeil (divCeil (count * shard) maxFrameShards) 64 = 64 * m * shard := by
    unfold divCeil maxFrameShards at *
    interval_cases shard <;> omega
  exact ⟨m * shard, by rw [shardFirst, hcut, Nat.mul_comm, Nat.mul_assoc 64, ← Nat.mul_assoc]⟩

lemma shards_apart (halign : 4096 * maxFrameShards ∣ divCeil count 64 * 64)
    (hshard : shard < maxFrameShards) (hshard' : shard' < maxFrameShards) (hne : shard ≠ shard') {word : Word}
    (h : ShardWords count shard word) : ¬ ShardWords count shard' word := by
  intro h'
  obtain ⟨index, rfl⟩ := shared_word hshard hshard' hne h h'
  wlog hlt : shard < shard' generalizing shard shard'
  · exact this hshard' hshard hne.symm h' h (by omega)
  have hcut := shardLast_le_shardFirst count hlt hshard'
  have hborder := dvd_shardFirst_of_aligned halign hshard'
  obtain ⟨-, hbefore⟩ := h
  obtain ⟨hafter, -⟩ := h'
  omega

/-! ## Concrete shards -/

/-- One run of frames from the second page on, and the metadata with all of them free. -/
def oneRun (pages : ℕ) : Layout := ⟨[⟨pageSize, 0, pages⟩], 1, pages, pages⟩

def allFree : Metadata
  | .free _ => BitVec.allOnes 64
  | .summary _ => BitVec.allOnes 64
  | .record _ => (⟨1, 0, stateFree⟩ : FrameRecord)

/-- An allocation reads the first summary word of its range. -/
theorem summary_mem_trace_tryAlloc (l : Layout) {owner : ℕ} (state : FrameState) (m : Metadata) (howner : owner ≠ 0)
    (hshard : shardFirst l.frameCount shard < shardLast l.frameCount shard) :
    .summary (shardFirst l.frameCount shard / 64 / 64) ∈ ((ShardOp.tryAlloc owner state).perform l shard).trace m := by
  have hvalid : ¬ (owner = 0 ∨ shardFirst l.frameCount shard > shardLast l.frameCount shard ∨
      shardLast l.frameCount shard > l.frameCount) := by
    have := shardLast_le l.frameCount shard
    omega
  have hsummaries : (shardLast l.frameCount shard - 1) / 64 / 64 + 1 - shardFirst l.frameCount shard / 64 / 64 =
      (shardLast l.frameCount shard - 1) / 64 / 64 - shardFirst l.frameCount shard / 64 / 64 + 1 := by
    omega
  unfold ShardOp.perform Layout.tryAllocInRange findFreeSlot
  dsimp only
  rw [if_neg hvalid, if_neg (Nat.ne_of_lt hshard), hsummaries]
  exact mem_cons_self

end LogOS.Memory
