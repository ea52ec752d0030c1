import LogOS.Storage.Block
import Mathlib.Data.List.Induction
import Mathlib.Logic.Function.Basic

/-!
# A device with a volatile write cache

A device that keeps whole-block writes in a queue until the next flush.  The power can go at any time: what is then
found is the durable image with any part of the queued writes applied to it.  Every I/O operation, in the order they
are issued, may be made to fail by an oracle; a failing operation has no effect.  A power cut in the middle of a call
is the oracle that fails every operation from some point on.
-/

namespace LogOS.Storage

open Lib Function

/-- A device image after the writes of a list, first to last. -/
def replay (image : ℕ → Block) (writes : List (ℕ × Block)) : ℕ → Block :=
  writes.foldl (fun im w => Function.update im w.1 w.2) image

variable (image : ℕ → Block)

@[simp] lemma replay_nil : replay image [] = image := rfl

lemma replay_append_one (writes : List (ℕ × Block)) (i : ℕ) (b : Block) :
    replay image (writes ++ [(i, b)]) = update (replay image writes) i b := by
  simp [replay]

lemma replay_eq_or_mem (writes : List (ℕ × Block)) (i : ℕ) :
    replay image writes i = image i ∨ (i, replay image writes i) ∈ writes := by
  induction writes using List.reverseRecOn with
  | nil => exact .inl rfl
  | append_singleton writes w ih =>
    rw [replay_append_one]
    by_cases h : i = w.1
    · subst h
      exact .inr (by simp)
    · rw [update_of_ne h]
      exact ih.imp_right fun h => by simp [h]

/-- The device: its durable image, the writes queued since the last flush, the number of I/O operations so far, and
which of them fail. -/
structure CrashStore where
  blocks : ℕ
  durable : ℕ → Block
  pending : List (ℕ × Block)
  clock : ℕ
  fails : ℕ → Option BlockError

namespace CrashStore

/-- The next I/O operation: `act` is what it does when it does not fail. -/
def io {α : Type} (act : CrashStore → Except BlockError α × CrashStore) : Op CrashStore BlockError α := fun s =>
  match s.fails s.clock with
  | some e => (.error e, { s with clock := s.clock + 1 })
  | none => act { s with clock := s.clock + 1 }

instance : BlockStore CrashStore where
  blockCount s := s.blocks
  readBlock i := io fun s => (if i < s.blocks then .ok (replay s.durable s.pending i) else .error .outOfBounds, s)
  readBlockUncached i :=
    io fun s => (if i < s.blocks then .ok (replay s.durable s.pending i) else .error .outOfBounds, s)
  writeBlock i b := io fun s =>
    if i < s.blocks then (.ok (), { s with pending := s.pending ++ [(i, b)] }) else (.error .outOfBounds, s)
  flush := io fun s => (.ok (), { s with durable := replay s.durable s.pending, pending := [] })
  mapReadBlocks _ _ := Op.fail .invalidRequest
  unmapRead _ := Op.ret ()

instance : StoreModel CrashStore where
  Inv _ := True
  view s := replay s.durable s.pending
  poss s i c := c = s.durable i ∨ (i, c) ∈ s.pending
  faithful _ _ := True
  page _ _ := none
  Healthy s := ∀ n, s.clock ≤ n → s.fails n = none

/-- What a power loss may leave: the durable image and any part of the queued writes. -/
def Survives (s : CrashStore) (image : ℕ → Block) : Prop :=
  ∃ kept, kept.Sublist s.pending ∧ image = replay s.durable kept

/-- The device that a power loss left with `image`, switched on again; no I/O fails any more. -/
def boot (blocks : ℕ) (image : ℕ → Block) : CrashStore := ⟨blocks, image, [], 0, fun _ => none⟩

/-- The device whose power goes after `k` more I/O operations. -/
def cutAfter (s : CrashStore) (k : ℕ) : CrashStore :=
  { s with fails := fun n => if n < s.clock + k then s.fails n else some .io }

variable {s s' : CrashStore}

lemma Survives.poss {image : ℕ → Block} (h : Survives s image) (i : ℕ) : poss s i (image i) := by
  obtain ⟨kept, hk, rfl⟩ := h
  exact (replay_eq_or_mem s.durable kept i).imp_right fun h => hk.subset h

lemma survives_view (s : CrashStore) : Survives s (view s) := ⟨s.pending, List.Sublist.refl _, rfl⟩

@[simp] lemma view_boot (n : ℕ) (image : ℕ → Block) : view (boot n image) = image := rfl

lemma poss_boot {n i : ℕ} {image : ℕ → Block} {c : Block} : poss (boot n image) i c ↔ c = image i := by
  show c = image i ∨ (i, c) ∈ [] ↔ _
  simp

@[simp] lemma healthy_boot (n : ℕ) (image : ℕ → Block) : Healthy (boot n image) := fun _ _ => rfl

@[simp] lemma blockCount_boot (n : ℕ) (image : ℕ → Block) : blockCount (boot n image) = n := rfl

@[simp] lemma inv (s : CrashStore) : StoreModel.Inv s := trivial

/-- The device after an I/O operation that left no trace. -/
def tick (s : CrashStore) : CrashStore := { s with clock := s.clock + 1 }

/-- The device with one more write in its queue. -/
def queue (s : CrashStore) (i : ℕ) (b : Block) : CrashStore :=
  { s with clock := s.clock + 1, pending := s.pending ++ [(i, b)] }

/-- The device with its queue written out. -/
def drain (s : CrashStore) : CrashStore :=
  { s with clock := s.clock + 1, durable := replay s.durable s.pending, pending := [] }

variable (s)

@[simp] lemma view_tick : view s.tick = view s := rfl

@[simp] lemma view_queue (i : ℕ) (b : Block) : view (s.queue i b) = Function.update (view s) i b :=
  replay_append_one ..

@[simp] lemma view_drain : view s.drain = view s := rfl

@[simp] lemma clock_tick : s.tick.clock = s.clock + 1 := rfl
@[simp] lemma clock_queue (i : ℕ) (b : Block) : (s.queue i b).clock = s.clock + 1 := rfl
@[simp] lemma clock_drain : s.drain.clock = s.clock + 1 := rfl
@[simp] lemma fails_tick : s.tick.fails = s.fails := rfl
@[simp] lemma fails_queue (i : ℕ) (b : Block) : (s.queue i b).fails = s.fails := rfl
@[simp] lemma fails_drain : s.drain.fails = s.fails := rfl
@[simp] lemma blocks_tick : s.tick.blocks = s.blocks := rfl
@[simp] lemma blocks_queue (i : ℕ) (b : Block) : (s.queue i b).blocks = s.blocks := rfl
@[simp] lemma blocks_drain : s.drain.blocks = s.blocks := rfl

variable {s}

lemma healthy_later {s s' : CrashStore} (hc : s.clock ≤ s'.clock) (hf : s'.fails = s.fails) (h : Healthy s) : Healthy s' :=
  fun n hn => by rw [hf]; exact h n (le_trans hc hn)

lemma evolves_tick (s : CrashStore) : Evolves noWrite s s.tick :=
  ⟨fun _ => trivial, rfl, healthy_later (Nat.le_succ _) rfl, fun _ _ => trivial, fun _ _ h => .inl h, fun _ => .inl rfl,
    fun _ _ _ h => .inl h⟩

lemma wp_io {α : Type} {act : CrashStore → Except BlockError α × CrashStore} {Q : α → CrashStore → Prop}
    {E : BlockError → CrashStore → Prop} (hact : Op.wp act Q E s.tick)
    (hE : ∀ e, ¬ Healthy s → E e s.tick) : Op.wp (io act) Q E s := by
  unfold Op.wp io
  cases hf : s.fails s.clock with
  | none => exact hact
  | some e => exact hE e fun h => by simp [h s.clock (le_refl _)] at hf

variable (s)

lemma evolves_write (i : ℕ) (b : Block) : Evolves (oneWrite i b) s (s.queue i b) where
  inv _ := trivial
  count := rfl
  healthy := healthy_later (Nat.le_succ _) rfl
  faithful _ _ := trivial
  poss j c := by
    rintro (h | h)
    · exact .inl (.inl h)
    · rcases List.mem_append.mp h with h | h
      · exact .inl (.inr h)
      · obtain ⟨rfl, rfl⟩ : j = i ∧ c = b := by simpa using h
        exact .inr ⟨rfl, rfl⟩
  view j := by
    rw [view_queue]
    by_cases h : j = i
    · subst h
      exact .inr ⟨rfl, update_self ..⟩
    · exact .inl (update_of_ne h ..)
  page _ _ _ h := .inl h

lemma evolves_flush : Evolves noWrite s s.drain where
  inv _ := trivial
  count := rfl
  healthy := healthy_later (Nat.le_succ _) rfl
  faithful _ _ := trivial
  poss j c := by
    rintro (rfl | h)
    · exact .inl (replay_eq_or_mem s.durable s.pending j)
    · exact absurd h List.not_mem_nil
  view _ := .inl rfl
  page _ _ _ h := .inl h

lemma wp_read (i : ℕ) : Op.wp (readBlock i) (fun b s' => Evolves noWrite s s' ∧ b = view s i)
      (fun _ s' => Evolves noWrite s s' ∧ (Healthy s → ¬ i < blockCount s)) s := by
  refine wp_io ?_ fun e h => ⟨evolves_tick s, fun h' => (h h').elim⟩
  unfold Op.wp
  by_cases h : i < s.tick.blocks
  · simp only [h]
    exact ⟨evolves_tick s, rfl⟩
  · simp only [h]
    exact ⟨evolves_tick s, fun _ => h⟩

variable {s}

instance : LawfulStore CrashStore where
  poss_view i _ := replay_eq_or_mem _ _ i
  read_law i _ := Op.wp_mono (wp_read _ i) (fun _ _ h => ⟨h.1, fun _ => h.2⟩) (fun _ _ h => h)
  readUncached_law i _ := wp_read _ i
  write_law {s} i b _ := by
    refine wp_io ?_ fun e h => ⟨evolves_tick s, fun h' => (h h').elim⟩
    unfold Op.wp
    by_cases h : i < s.tick.blocks
    · simp only [h, if_true]
      exact ⟨evolves_write s i b, (congrFun (view_queue s i b) i).trans (Function.update_self ..)⟩
    · simp only [h, if_false]
      exact ⟨evolves_tick s, fun _ => h⟩
  flush_law {s} _ := by
    refine wp_io ?_ fun e h => ⟨evolves_tick s, h⟩
    refine ⟨evolves_flush s, fun i c hc => ?_⟩
    rcases hc with hc | hc
    · exact hc
    · simp at hc

/-! ## Runs of a device whose failures are known -/

lemma readBlock_eq {i : ℕ} (hf : s.fails s.clock = none) (hi : i < s.blocks) : readBlock i s = (.ok (view s i), s.tick) := by
  show io _ s = _
  simp only [io, hf, hi]
  rfl

lemma writeBlock_eq {i : ℕ} {b : Block} (hf : s.fails s.clock = none) (hi : i < s.blocks) :
    writeBlock i b s = (.ok (), s.queue i b) := by
  show io _ s = _
  simp [io, hf, hi, queue]

lemma flush_eq (hf : s.fails s.clock = none) : flush s = (.ok (), s.drain) := by
  show io _ s = _
  simp only [io, hf]
  rfl

lemma readBlock_fails {i : ℕ} {e : BlockError} (hf : s.fails s.clock = some e) : readBlock i s = (.error e, s.tick) := by
  show io _ s = _
  simp only [io, hf]
  rfl

lemma writeBlock_fails {i : ℕ} {b : Block} {e : BlockError} (hf : s.fails s.clock = some e) :
    writeBlock i b s = (.error e, s.tick) := by
  show io _ s = _
  simp only [io, hf]
  rfl

end CrashStore

end LogOS.Storage
