import LogOS.Kernel.SchedulerSafe

/-!
# The operations of the scheduler, one by one

Each program is shown to be safe in the proof outline, from the end of the program to its beginning.
-/

set_option linter.unusedSectionVars false

namespace LogOS.Kernel.Scheduler

open Lib.Interleaving Function Stable Action Frame

variable {T : Type} [DecidableEq T] {σ ω : Prop} {s : State T} {e : LogEntry T} {t : T} {c : Call}

/-- A program of the scheduler is safe in its outline. -/
abbrev Sound (σ ω : Prop) (t : T) (c : Call) (p : Program) (P : State T → Prop) : Prop :=
  Safe (outline σ ω) (rules σ ω) t c p P

/-! ## Rules -/

variable {reply : Reply} {r : Reg} {next : Program}

section Rules

variable {P P' : State T → Prop}

lemma plain_load (r : Reg) (v : Val r) : Plain (.load r v) := by
  intro i
  simp [writes]

lemma sound_ret (hseen : ∀ s, Inv σ ω s → P s → Seen ω t c (.ret reply) s)
    (h : ∀ s, Inv σ ω s → inCall t s.log = some c → P s → Answers ω s t c reply) : Sound σ ω t c (.ret reply) P :=
  ⟨hseen, fun s hi hin hP => legal_returned hin (h s hi hin hP)⟩

variable {v : Val r}

lemma sound_store
    (hseen : ∀ s, Inv σ ω s → P s → Seen ω t c (.store r v next) s) (hst : Stable (outline σ ω) t P')
    (h : ∀ s, Inv σ ω s → inCall t s.log = some c → P s → (ω → ClearsCurrent s t c (.store r v)) →
      Legal σ ω s (.did t c (.store r v)) ∧ P' (s.push (.did t c (.store r v))))
    (hnext : Sound σ ω t c next P') : Sound σ ω t c (.store r v next) P :=
  ⟨hseen, P', hst, fun s hi hin hP _ hmay => h s hi hin hP hmay, hnext⟩

lemma sound_load {next : Val r → Program} (P' : Val r → State T → Prop)
    (hseen : ∀ s, Inv σ ω s → P s → Seen ω t c (.load r next) s) (hst : ∀ v, Stable (outline σ ω) t (P' v))
    (h : ∀ v s, Inv σ ω s → inCall t s.log = some c → P s → s.mem r = v → P' v (s.push (.did t c (.load r v))))
    (hnext : ∀ v, Sound σ ω t c (next v) (P' v)) : Sound σ ω t c (.load r next) P := by
  refine ⟨hseen, fun v => ⟨P' v, hst v, ?_, hnext v⟩⟩
  intro s hi hin hP hfit _
  exact ⟨legal_plain hin (plain_load _ _), h v s hi hin hP hfit⟩

lemma sound_cas {old new : Val r} {next : Bool → Program} {P1 P2 : State T → Prop}
    (hseen : ∀ s, Inv σ ω s → P s → Seen ω t c (.cas r old new next) s)
    (hst1 : Stable (outline σ ω) t P1) (hst2 : Stable (outline σ ω) t P2)
    (hswap : ∀ s, Inv σ ω s → inCall t s.log = some c → P s → s.mem r = old →
      (ω → ClearsCurrent s t c (.swap r old new)) →
      Legal σ ω s (.did t c (.swap r old new)) ∧ P1 (s.push (.did t c (.swap r old new))))
    (hmiss : ∀ s, Inv σ ω s → inCall t s.log = some c → P s → s.mem r ≠ old → P2 (s.push (.did t c (.miss r old new))))
    (hnext1 : Sound σ ω t c (next true) P1) (hnext2 : Sound σ ω t c (next false) P2) :
    Sound σ ω t c (.cas r old new next) P := by
  refine ⟨hseen, ⟨P1, hst1, ?_, hnext1⟩, P2, hst2, ?_, hnext2⟩
  · intro s hi hin hP hfit hmay
    exact hswap s hi hin hP hfit hmay
  · intro s hi hin hP hfit _
    refine ⟨legal_plain hin ?_, hmiss s hi hin hP hfit⟩
    intro i
    simp [writes]

lemma sound_fetch {update : Val r → Val r} {next : Val r → Program}
    (hseen : ∀ s, Inv σ ω s → P s → Seen ω t c (.fetch r update next) s) (hst : Stable (outline σ ω) t P')
    (hplain : ∀ v, Plain (.fetch r v (update v)))
    (h : ∀ v s, Inv σ ω s → Legal σ ω s (.did t c (.fetch r v (update v))) → P s →
      P' (s.push (.did t c (.fetch r v (update v)))))
    (hnext : ∀ v, Sound σ ω t c (next v) P') : Sound σ ω t c (.fetch r update next) P := by
  refine ⟨hseen, fun v => ⟨P', hst, ?_, hnext v⟩⟩
  intro s hi hin hP _ _
  have hl : Legal σ ω s (.did t c (.fetch r v (update v))) := legal_plain hin (hplain v)
  exact ⟨hl, h v s hi hl hP⟩

/-- A store that keeps what the thread knows. -/
theorem sound_frame_store
    (hseen : ∀ s, Inv σ ω s → P s → Seen ω t c (.store r v next) s) (hF : Frame σ ω t P) (hr : ∀ j, r ≠ .state j)
    (h : ∀ s, Inv σ ω s → inCall t s.log = some c → P s → Legal σ ω s (.did t c (.store r v)))
    (hnext : Sound σ ω t c next P) : Sound σ ω t c (.store r v next) P := by
  refine sound_store hseen hF.stable ?_ hnext
  intro s hi hin hP _
  have hl := h s hi hin hP
  refine ⟨hl, hF s _ (.inr ⟨c, _, rfl, ?_⟩) hi hl hP⟩
  intro j hw
  exact hr j (Option.some.inj hw)

/-- A plain step keeps what the thread knows. -/
theorem Frame.plain (hF : Frame σ ω t P) (hi : Inv σ ω s) (hin : inCall t s.log = some c) {a : Action Reg Val} (ha : Plain a)
    (hP : P s) : P (s.push (.did t c a)) :=
  hF s _ (.inr ⟨_, _, rfl, fun i => (ha i).1⟩) hi (legal_plain hin ha) hP

lemma sound_plain_store (hseen : ∀ s, Inv σ ω s → P s → Seen ω t c (.store r v next) s)
    (hF : Frame σ ω t P) (ha : Plain (.store r v)) (hnext : Sound σ ω t c next P) : Sound σ ω t c (.store r v next) P :=
  sound_frame_store hseen hF (fun j h => (ha j).1 (congrArg some h)) (fun _ _ hin _ => legal_plain hin ha) hnext

lemma sound_frame_load {next : Val r → Program} (hseen : ∀ s, Inv σ ω s → P s → Seen ω t c (.load r next) s)
    (hF : Frame σ ω t P) (hnext : ∀ v, Sound σ ω t c (next v) P) : Sound σ ω t c (.load r next) P :=
  sound_load (fun _ => P) hseen (fun _ => hF.stable) (fun _ _ hi hin hP _ => hF.plain hi hin (plain_load _ _) hP) hnext

end Rules

/-! ## Operations that rouse nobody -/

variable {p : Program} {h : TaskHandle} {i : Fin 24} {a : Action Reg Val} {w old : StateWord} {g : ℕ}

/-- Nothing has to be seen in an operation that wakes nobody. -/
theorem unseen (hc : c.rouses = false) {P : State T → Prop} (s : State T) (_ : Inv σ ω s) (_ : P s) : Seen ω t c p s := by
  intro _ h
  rw [hc] at h
  cases h

lemma settled_of_not_rouses (hi : Inv σ ω s) (hin : inCall t s.log = some c) (hc : c.rouses = false) : Settled ω t s := by
  intro _ j hd
  obtain ⟨c', hin', hr⟩ := hi.debt t j hd
  rw [hin] at hin'
  cases hin'
  rw [hc] at hr
  cases hr

lemma registers_call {r : Registration} (hr : registers (.returned t c reply : LogEntry T) = some (h, r)) :
    c.rouses = false ∧ c.handle? = some h ∧ reply.succeeded = true := by
  unfold registers at hr
  split at hr
  · rename_i heq
    cases heq
    cases hr
    exact ⟨rfl, rfl, rfl⟩
  · rename_i heq
    cases heq
    cases hr
    exact ⟨rfl, rfl, rfl⟩
  · cases hr

/-- An operation may always fail. -/
theorem answers_of_failed (hset : Settled ω t s) (hr : reply.succeeded = false) : Answers ω s t c reply where
  fresh := fun h _ hs => by rw [hr] at hs; cases hs
  stop := fun h _ hs => by rw [hs] at hr; cases hr
  reclaim := fun h _ hs => by rw [hs] at hr; cases hr
  save := fun h rsp _ hs => by rw [hs] at hr; cases hr
  registers := fun _ h r hreg => by rw [(registers_call hreg).2.2] at hr; cases hr
  settled := fun hω i hd hr => hset hω i hd hr

/-- The answer of an operation that neither rouses nor registers. -/
theorem answers_quiet (hi : Inv σ ω s) (hin : inCall t s.log = some c) (hc : c.rouses = false)
    (hfresh : ∀ h, c.handle? = some h → Fresh t h s)
    (hreclaim : ∀ h, c = .reclaimCompleted h → ∃ i : Fin 24, i.val = h.slot ∧ h.generation < (word s.mem i).generation)
    (hsave : ∀ h rsp, c = .saveContext h rsp → unsaved t h s.log = false)
    (hreg : registers (.returned t c reply : LogEntry T) = none) : Answers ω s t c reply where
  fresh h hh _ := hfresh h hh
  stop h hh := by subst hh; cases hc
  reclaim h hh _ := hreclaim h hh
  save h rsp hh _ := hsave h rsp hh
  registers _ h r hk := by rw [hreg] at hk; cases hk
  settled := settled_of_not_rouses hi hin hc

lemma sound_fails (hc : c.rouses = false) (hr : reply.succeeded = false) {P : State T → Prop} :
    Sound σ ω t c (.ret reply) P :=
  sound_ret (unseen hc) fun _ hi hin _ => answers_of_failed (settled_of_not_rouses hi hin hc) hr

lemma mem_of_mem_callLog {log : List (LogEntry T)} {x : LogEntry T} (h : x ∈ callLog t log) : x ∈ log := by
  induction log with
  | nil => cases h
  | cons y log ih =>
    rw [List.mem_cons]
    cases y with
    | called u c =>
      rw [callLog] at h
      split at h
      · exact .inr h
      · exact .inr (ih h)
    | did u c a | returned u c reply => exact .inr (ih h)

/-- A handle of the generation that is in the slot has not been reclaimed. -/
theorem fresh_of_current (hi : Inv σ ω s) (hat : h.At i (word s.mem i)) : Fresh t h s := by
  rintro ⟨u, hu⟩
  obtain ⟨k, hk, hlt⟩ := hi.reclaimed h ⟨u, mem_of_mem_callLog hu⟩
  have hki : k = i := Fin.ext (hk.trans hat.1.symm)
  subst hki
  rw [hat.2] at hlt
  exact lt_irrefl _ hlt

lemma fresh_of_holder (hi : Inv σ ω s) {u : T} (hh : holder h s.log = some u) : Fresh t h s := by
  obtain ⟨i, hat, -⟩ := hi.held h u hh
  exact fresh_of_current hi hat

lemma fresh_push (hf : Fresh t h s) : Fresh t h (s.push (.did t c a)) := hf

section Quiet

lemma sound_onlineCpu (cpu : ℕ) : Sound σ ω t (.onlineCpu cpu) (onlineCpu cpu) (fun _ => True) := by
  unfold onlineCpu
  split
  · refine sound_plain_store (unseen rfl) (const True) (by simp [Plain, writes]) (sound_ret (unseen rfl) ?_)
    intro s hi hin _
    exact answers_quiet hi hin rfl nofun nofun nofun rfl
  · exact sound_fails rfl rfl

/-! ### Spawning -/

/-- A store to the fields of a slot that the thread has reserved. -/
theorem sound_slot_store (hc : c.rouses = false) {k : Bool} {P : State T → Prop} (hF : Frame σ ω t P)
    (hown : ∀ s, P s → Owned t i k w s) (hr : ∀ j, r ≠ .state j)
    (hslot : ∀ j, r = .contextSaved j ∨ r = .waitObject j ∨ r = .wakeDeadline j → j = i)
    (hnext : Sound σ ω t c next P) : Sound σ ω t c (.store r v next) P :=
  sound_frame_store (unseen hc) hF hr (fun s hi hin hP => legal_reserved hin hi hc (hown s hP) hr hslot) hnext

lemma sound_initializeSlot (hc : c.rouses = false) {k : Bool}
    (entry addressSpace : ℕ) (launch : Option UserLaunch) (hnext : Sound σ ω t c next (Owned t i k w)) :
    Sound σ ω t c (initializeSlot i entry addressSpace launch next) (Owned t i k w) := by
  iterate 10 refine sound_slot_store hc (frame_owned i k w) (fun _ => id) (by simp) (by simp [eq_comm]) ?_
  exact hnext

lemma owned_of_reserved {old new : StateWord} (hnew : new.state = .initializing) (s : State T) :
    Owned t i (decide (old.state = .completed)) new (s.push (.did t c (.swap (.state i) old new))) := by
  constructor
  · rw [show (s.push (.did t c (.swap (.state i) old new))).log = .did t c (.swap (.state i) old new) :: s.log from rfl,
      initializer_cons_swapped rfl, if_pos hnew]
    rfl
  · exact word_push_swapped rfl

lemma sound_spawnFrom (entry addressSpace : ℕ) (launch : Option UserLaunch) (slots : List (Fin 24)) :
    Sound σ ω t (.spawn entry addressSpace launch) (spawnFrom entry addressSpace launch slots) (fun _ => True) := by
  induction slots with
  | nil => exact sound_fails rfl rfl
  | cons i rest ih =>
    refine sound_frame_load (unseen rfl) (const True) fun (old : StateWord) => ?_
    split
    · exact ih
    rename_i hold
    rw [not_not] at hold
    refine sound_cas (unseen rfl) (frame_owned i false (pack old.generation .initializing)).stable (const True)
      ?_ (fun _ _ _ _ _ => trivial) ?_ ih
    · intro s hi hin _ hw _
      refine ⟨legal_swap hin hw (Swap.reserve hold), ?_⟩
      have hown : Owned t i (decide (old.state = .completed)) (pack old.generation .initializing)
          (s.push (.did t (.spawn entry addressSpace launch) (.swap (.state i) old (pack old.generation .initializing)))) :=
        owned_of_reserved rfl s
      rw [hold] at hown
      exact hown
    · refine sound_initializeSlot rfl entry addressSpace launch ?_
      refine sound_store (unseen rfl) (const True) ?_ (sound_fails rfl rfl)
      rintro s hi hin ⟨hown, hw⟩ _
      refine ⟨legal_publish hin ?_, trivial⟩
      have hpub : Publish s.log t i (word s.mem i) (pack (word s.mem i).generation .runnable) := .spawned hown
      rw [hw, pack_word_generation] at hpub
      rw [hw]
      exact hpub

lemma sound_spawnInternal (entry addressSpace : ℕ) (launch : Option UserLaunch) :
    Sound σ ω t (.spawn entry addressSpace launch) (spawnInternal entry addressSpace launch) (fun _ => True) := by
  unfold spawnInternal
  split
  · exact sound_fails rfl rfl
  · split
    · exact sound_fails rfl rfl
    · exact sound_spawnFrom entry addressSpace launch _

/-! ### Claiming and reclaiming -/

lemma sound_claimFrom (cpu : Fin 8) (n : ℕ) (slots : List (Fin 24)) :
    Sound σ ω t (.claimNext n) (claimFrom cpu slots) (fun _ => True) := by
  induction slots with
  | nil => exact sound_fails rfl rfl
  | cons i rest ih =>
    refine sound_frame_load (unseen rfl) (const True) fun old => ?_
    split
    · exact ih
    rename_i hold
    rw [not_not] at hold
    refine sound_cas (unseen rfl) (const True) (const True) ?_ (fun _ _ _ _ _ => trivial) ?_ ih
    · intro s hi hin _ hw _
      exact ⟨legal_swap hin hw (Swap.claim hold), trivial⟩
    · refine sound_plain_store (unseen rfl) (const True) (by simp [Plain, writes]) ?_
      refine sound_plain_store (unseen rfl) (const True) (by simp [Plain, writes]) ?_
      exact sound_fetch (unseen rfl) (const True) (by simp [Plain, writes]) (fun _ _ _ _ _ => trivial)
        (fun _ => sound_fails rfl rfl)

lemma sound_claimNext (cpu : ℕ) : Sound σ ω t (.claimNext cpu) (claimNext cpu) (fun _ => True) := by
  unfold claimNext
  split
  · refine sound_frame_load (unseen rfl) (const True) fun online => ?_
    split
    · exact sound_fetch (unseen rfl) (const True) (by simp [Plain, writes]) (fun _ _ _ _ _ => trivial)
        (fun start => sound_claimFrom _ cpu (claimOrder start))
    · exact sound_fails rfl rfl
  · exact sound_fails rfl rfl

lemma nextGeneration_of_lt (h : g + 1 < 2 ^ 56) : nextGeneration g = g + 1 := by
  unfold nextGeneration
  rw [Nat.mod_eq_of_lt (by omega : g < 2 ^ 56), Nat.mod_eq_of_lt h]
  exact if_neg (Nat.succ_ne_zero g)

lemma sound_clearSlot (hc : c.rouses = false) {k : Bool}
    (hnext : Sound σ ω t c next (fun s => Owned t i k w s ∧ Fresh t h s)) :
    Sound σ ω t c (clearSlot i next) (fun s => Owned t i k w s ∧ Fresh t h s) := by
  iterate 10
    refine sound_slot_store hc ((frame_owned i k w).and (frame_fresh h)) (fun _ => And.left) (by simp) (by simp [eq_comm]) ?_
  exact hnext

lemma sound_reclaimCompleted (h : TaskHandle) (hlt : h.generation + 1 < 2 ^ 56) :
    Sound σ ω t (.reclaimCompleted h) (reclaimCompleted h) (fun _ => True) := by
  unfold reclaimCompleted onSlot
  split
  rotate_left
  · exact sound_fails rfl rfl
  rename_i hslot
  refine sound_cas (unseen rfl)
    ((frame_owned ⟨h.slot, hslot⟩ true (pack h.generation .initializing)).and (frame_fresh h)).stable (const True)
    ?_ (fun _ _ _ _ _ => trivial) ?_ (sound_fails rfl rfl)
  · intro s hi hin _ hw _
    have hgen : (pack h.generation .completed).generation = h.generation := pack_generation h.generation_lt _
    have hswap : Swap σ s.log t ⟨h.slot, hslot⟩ (pack h.generation .completed) (pack h.generation .initializing) := by
      have hre : Swap σ s.log t ⟨h.slot, hslot⟩ (pack h.generation .completed)
        (pack (pack h.generation .completed).generation .initializing) := .reclaim rfl
      rw [hgen] at hre
      exact hre
    have hat : h.At ⟨h.slot, hslot⟩ (word s.mem ⟨h.slot, hslot⟩) := by
      refine ⟨rfl, ?_⟩
      rw [show word s.mem ⟨h.slot, hslot⟩ = pack h.generation .completed from hw]
      exact hgen
    exact ⟨legal_swap hin hw hswap, owned_of_reserved rfl s, fresh_push (fresh_of_current hi hat)⟩
  · refine sound_clearSlot rfl ?_
    have hgone : Frame σ ω t (fun s : State T => h.generation < (word s.mem ⟨h.slot, hslot⟩).generation) :=
      fun _ _ _ _ hl hg => hg.trans_le (hl.generation_le _)
    refine sound_store (unseen rfl) (hgone.and (frame_fresh h)).stable ?_ ?_
    · rintro s hi hin ⟨⟨hown, hw⟩, hf⟩ _
      have hgen : (word s.mem ⟨h.slot, hslot⟩).generation = h.generation := by
        rw [hw]
        exact pack_generation h.generation_lt _
      have hpub : Publish s.log t ⟨h.slot, hslot⟩ (word s.mem ⟨h.slot, hslot⟩)
          (pack (nextGeneration h.generation) .vacant) := by
        rw [nextGeneration_of_lt hlt, ← hgen]
        exact .vacated hown (by rw [hgen]; exact hlt)
      refine ⟨legal_publish hin hpub, ?_, hf⟩
      rw [word_push_stored rfl, nextGeneration_of_lt hlt, pack_generation hlt]
      exact Nat.lt_succ_self _
    · refine sound_ret (unseen rfl) ?_
      rintro s hi hin ⟨hgone, hf⟩
      exact answers_quiet hi hin rfl (by rintro k ⟨⟩; exact hf) (by rintro k ⟨⟩; exact ⟨⟨h.slot, hslot⟩, rfl, hgone⟩) nofun rfl

/-! ### Saving a context -/

lemma sound_saveContext (h : TaskHandle) (rsp : ℕ) :
    Sound σ ω t (.saveContext h rsp) (saveContext h rsp) (fun s =>
      (σ → holder h s.log = some t) ∧ unsaved t h s.log = false) := by
  unfold saveContext onSlot
  split
  rotate_left
  · exact sound_fails rfl rfl
  rename_i hslot
  have hP : Frame σ ω t (fun s : State T => (σ → holder h s.log = some t) ∧ unsaved t h s.log = false) :=
    (imp fun _ => frame_holder h).and (frame_unsaved h)
  refine sound_load (fun (v : StateWord) s => ((σ → holder h s.log = some t) ∧ unsaved t h s.log = false) ∧
      (v.generation = h.generation → Fresh t h s)) (unseen rfl)
    (fun v => (hP.and (imp fun _ => frame_fresh h)).stable) ?_ ?_
  · intro (v : StateWord) s hi hin hs hv
    refine ⟨hP.plain hi hin (plain_load _ _) hs, ?_⟩
    intro hg
    have hat : h.At ⟨h.slot, hslot⟩ (word s.mem ⟨h.slot, hslot⟩) := by
      refine ⟨rfl, ?_⟩
      rw [show word s.mem ⟨h.slot, hslot⟩ = v from hv]
      exact hg
    exact fresh_push (fresh_of_current hi hat)
  · intro (v : StateWord)
    split
    · exact sound_fails rfl rfl
    rename_i hv
    rw [not_or, not_not] at hv
    have hF := hP.and (imp (σ := σ) (ω := ω) (p := v.generation = h.generation) fun _ => frame_fresh h)
    refine sound_plain_store (unseen rfl) hF (by simp [Plain, writes]) ?_
    refine sound_frame_store (unseen rfl) hF (by simp) ?_ ?_
    · rintro s hi hin ⟨⟨hh, -⟩, -⟩
      refine legal_did hin (by simp [writes]) ?_ ?_ ?_
      · intro hσ i hw _
        cases hw
        exact .inr ⟨h, rfl, hh hσ⟩
      · intro _ i hw
        cases hw
      · intro _ i hcl
        cases hcl
    · refine sound_ret (unseen rfl) ?_
      rintro s hi hin ⟨⟨-, hu⟩, hf⟩
      exact answers_quiet hi hin rfl (by rintro k ⟨⟩; exact hf hv.1) (fun k h => by cases h) (by rintro k rsp' ⟨⟩; exact hu) rfl

/-! ### Registering a wait -/

/-- The slot of a task that is held. -/
theorem taskAt_of_holder (hi : Inv σ ω s) (hs : h.slot = i.val) {u : T}
    (hh : holder h s.log = some u) : taskAt i (word s.mem i) = h ∧ (word s.mem i).Active := by
  obtain ⟨k, hat, hact⟩ := hi.held h u hh
  have hki : k = i := Fin.ext (hat.1.trans hs)
  subst hki
  exact ⟨TaskHandle.at_iff.mp hat, hact⟩

lemma legal_registering (hs : h.slot = i.val)
    (hr : r = .waitObject i ∨ r = .wakeDeadline i) (hi : Inv σ ω s) (hin : inCall t s.log = some c) (hc : c.rouses = false)
    (hP : holder h s.log = some t ∧ (ω → registration h s.log = none)) : Legal σ ω s (.did t c (.store r v)) := by
  refine legal_wait_store hin hr hc ?_
  intro hω
  refine ⟨.inr ⟨h, hs, hP.1⟩, ?_⟩
  intro reg hx
  have hreg := hx.registration
  rw [(taskAt_of_holder hi hs hP.1).1, hP.2 hω] at hreg
  cases hreg

lemma answers_registered {r : Registration} (hs : h.slot = i.val)
    (hi : Inv σ ω s) (hin : inCall t s.log = some c) (hreg : registers (.returned t c reply : LogEntry T) = some (h, r))
    (hP : holder h s.log = some t ∧ (ω → (word s.mem i).Rousable → Covered s i r)) : Answers ω s t c reply where
  fresh := fun k hk _ => by
    rw [(registers_call hreg).2.1] at hk
    cases hk
    exact fresh_of_holder hi hP.1
  stop := fun k hk => by subst hk; cases hreg
  reclaim := fun k hk => by subst hk; cases hreg
  save := fun k rsp hk => by subst hk; cases hreg
  registers := fun hω k r' hk => by
    rw [hreg] at hk
    cases hk
    refine ⟨hP.1, ?_⟩
    intro j hj hr
    have hji : j = i := by
      have hval := congrArg TaskHandle.slot hj
      exact Fin.ext (hval.trans hs)
    subst hji
    exact hP.2 hω hr
  settled := settled_of_not_rouses hi hin (registers_call hreg).1

/-- The store that completes a registration. -/
theorem sound_register {reg : Registration} (hs : h.slot = i.val) (hr : r = .waitObject i ∨ r = .wakeDeadline i)
    (hreg : registers (.returned t c reply : LogEntry T) = some (h, reg))
    (hdone : ∀ s : State T, Registered (s.push (.did t c (.store r v))).mem i reg) :
    Sound σ ω t c (.store r v (.ret reply)) (fun s => holder h s.log = some t ∧ (ω → registration h s.log = none)) := by
  have hc := (registers_call hreg).1
  refine sound_store (unseen hc) (stable_awaits hs reg) ?_
    (sound_ret (unseen hc) fun s hi hin hP => answers_registered hs hi hin hreg hP)
  intro s hi hin hP _
  have hl : Legal σ ω s (.did t c (.store r v)) := legal_registering hs hr hi hin hc hP
  refine ⟨hl, (frame_unregistered h s _ (.inr ⟨_, _, rfl, ?_⟩) hi hl hP).1, fun _ _ => .inl (hdone s)⟩
  rcases hr with rfl | rfl <;> simp [writes]

lemma sound_armDeadline (h : TaskHandle) (deadline : ℕ) :
    Sound σ ω t (.armDeadline h deadline) (armDeadline h deadline) (fun s =>
      holder h s.log = some t ∧ (ω → registration h s.log = none)) := by
  unfold armDeadline onSlot
  split
  rotate_left
  · exact sound_fails rfl rfl
  have hF := frame_unregistered (σ := σ) (ω := ω) (t := t) h
  refine sound_frame_load (unseen rfl) hF fun v => ?_
  split
  · exact sound_fails rfl rfl
  exact sound_register rfl (.inr rfl) rfl fun s => .inr ⟨update_self _ _ _, .inr rfl⟩

lemma sound_waitForEventObject (h : TaskHandle) (object deadline : ℕ) :
    Sound σ ω t (.waitForEventObject h object deadline) (waitForEventObject h object deadline) (fun s =>
      holder h s.log = some t ∧ (ω → registration h s.log = none)) := by
  unfold waitForEventObject onSlot
  split
  · exact sound_fails rfl rfl
  split
  rotate_left
  · exact sound_fails rfl rfl
  have hF := frame_unregistered (σ := σ) (ω := ω) (t := t) h
  refine sound_frame_load (unseen rfl) hF fun v => ?_
  split
  · exact sound_fails rfl rfl
  refine sound_frame_store (unseen rfl) hF (by simp) (fun s hi hin hP => legal_registering rfl (.inl rfl) hi hin rfl hP) ?_
  refine sound_frame_store (unseen rfl) hF (by simp) (fun s hi hin hP => legal_registering rfl (.inr rfl) hi hin rfl hP) ?_
  exact sound_register rfl (.inl rfl) rfl fun s => .inl ⟨object, rfl, update_self _ _ _⟩

/-! ### Finishing -/

lemma finishedState_cases (o : FinishState) (old : StateWord) : finishedState o old = .runnable ∨
    finishedState o old = .completed ∨ finishedState o old = .blocked := by
  unfold finishedState
  split
  · simp
  · cases o <;> simp <;> split <;> simp

lemma finishedState_blocked {o : FinishState} (h : finishedState o old = .blocked) :
    old.state ≠ .stopping ∧ old.wakePending = false ∧ (o = .blocked ∨ o = .timedBlocked) := by
  unfold finishedState at h
  split at h
  · cases h
  · rename_i hst
    cases o <;> simp at h
    · exact ⟨hst, h, .inl rfl⟩
    · exact ⟨hst, h, .inr rfl⟩

lemma finishedState_not_blocked {o : FinishState} (h : finishedState o old ≠ .blocked)
    (hr : old.Rousable) (hact : old.Active) : o = .runnable ∨ o = .completed := by
  have hst : old.state ≠ .stopping := by
    intro hst
    rcases hr with ⟨hr, -⟩ | hr <;> rw [hst] at hr <;> cases hr
  have hpend : old.wakePending = false := by
    rcases hr with ⟨-, hr⟩ | hr
    · exact hr
    · rcases hact with hact | hact <;> rw [hr] at hact <;> cases hact
  unfold finishedState at h
  rw [if_neg hst] at h
  cases o <;> simp [hpend] at h ⊢

/-- What the thread knows once it has loaded the word of the task it finishes. -/
def FinishLoaded (σ : Prop) (t : T) (h : TaskHandle) (o : FinishState) (i : Fin 24) (old : StateWord) (s : State T) : Prop :=
  Finishing σ t h o s ∧ (¬ old.Rousable → holder h s.log = some t ∧ ¬ (word s.mem i).Rousable)

lemma frame_finishLoaded (hs : h.slot = i.val) (o : FinishState) (old : StateWord) :
    Frame σ ω t (FinishLoaded σ t h o i old) :=
  (frame_finishing h o).and (imp fun _ => frame_not_rousable h i hs)

section Finish

variable (hs : h.slot = i.val) (o : FinishState) (hgen : old.generation = h.generation) (hact : old.Active)

include hs hgen hact

lemma sound_publish :
    Sound σ ω t (.finish h o) (.cas (.state i) old (pack h.generation (finishedState o old)) fun done =>
      if done then .ret (.flag true) else .jump (.finish i h.generation o)) (FinishLoaded σ t h o i old) := by
  refine sound_cas (unseen rfl) (frame_fresh h).stable (frame_finishLoaded hs o old).stable ?_ ?_ ?_ ?_
  · rintro s hi hin ⟨hf, -⟩ hw _
    have htask : taskAt i old = h := TaskHandle.at_iff.mp ⟨hs.symm, hgen⟩
    refine ⟨legal_swap hin hw ?_, fresh_push (fresh_of_holder hi hf.held)⟩
    rw [← hgen]
    refine .finish _ hact (finishedState_cases o old) ?_ ?_ ?_ ?_ ?_
    · intro hb
      obtain ⟨hst, hp, -⟩ := finishedState_blocked hb
      exact .inl ⟨hact.resolve_right hst, hp⟩
    · intro hst
      exact if_pos hst
    · rw [htask]
      exact hf.held
    · rw [htask]
      exact hf.begun
    · rw [htask]
      exact hf.saved
  · intro s hi hin hP _
    exact (frame_finishLoaded hs o old).plain hi hin (by simp [Plain, writes]) hP
  · refine sound_ret (unseen rfl) ?_
    intro s hi hin hf
    exact answers_quiet hi hin rfl (by rintro k ⟨⟩; exact hf) nofun nofun rfl
  · refine ⟨unseen rfl, ?_⟩
    intro s hi hP
    exact ⟨h, ⟨rfl, hs, rfl⟩, hP.1⟩

/-- The stores of `finish` to a task that will not wait. -/
theorem legal_finish_store (hr : r = .waitObject i ∨ r = .wakeDeadline i)
    (hnext : finishedState o old ≠ .blocked) (hi : Inv σ ω s) (hin : inCall t s.log = some (.finish h o))
    (hP : FinishLoaded σ t h o i old s) : Legal σ ω s (.did t (.finish h o) (.store r v)) := by
  refine legal_wait_store hin hr rfl ?_
  intro hω
  refine ⟨.inr ⟨h, hs, hP.1.held⟩, ?_⟩
  intro reg hx
  by_cases hrouse : old.Rousable
  · have hout := hx.outcome o (by rw [(taskAt_of_holder hi hs hP.1.held).1]; exact hP.1.outcome)
    rcases finishedState_not_blocked hnext hrouse hact with rfl | rfl <;> cases hout
  · exact absurd hx.rousable (hP.2 hrouse).2

end Finish

lemma sound_finishLoop (hs : h.slot = i.val) (o : FinishState) :
    Sound σ ω t (.finish h o) (finishLoop i h.generation o) (Finishing σ t h o) := by
  refine sound_load (fun old => FinishLoaded σ t h o i old) (unseen rfl)
    (fun old => (frame_finishLoaded hs o old).stable) ?_ ?_
  · intro (old : StateWord) s hi hin hP hw
    refine ⟨(frame_finishing h o).plain hi hin (plain_load _ _) hP, ?_⟩
    intro hr
    refine (frame_not_rousable h i hs).plain hi hin (plain_load _ _) ⟨hP.held, ?_⟩
    rw [show word s.mem i = old from hw]
    exact hr
  · intro (old : StateWord)
    split
    · exact sound_fails rfl rfl
    rename_i hold
    rw [not_or, not_not, not_not] at hold
    obtain ⟨hgen, hact⟩ := hold
    have hpub := sound_publish (σ := σ) (ω := ω) (t := t) hs o hgen hact
    dsimp only
    split
    · rename_i hnext
      refine sound_frame_store (unseen rfl) (frame_finishLoaded hs o old) (by simp)
        (fun s hi hin hP => legal_finish_store hs o hgen hact (.inl rfl) hnext hi hin hP) ?_
      exact sound_frame_store (unseen rfl) (frame_finishLoaded hs o old) (by simp)
        (fun s hi hin hP => legal_finish_store hs o hgen hact (.inr rfl) hnext hi hin hP) hpub
    · split
      · rename_i ho
        subst ho
        refine sound_frame_store (unseen rfl) (frame_finishLoaded hs _ old) (by simp) ?_ hpub
        intro s hi hin hP
        refine legal_wait_store hin (.inr rfl) rfl ?_
        intro hω
        refine ⟨.inr ⟨h, hs, hP.1.held⟩, ?_⟩
        intro reg hx hreg
        -- a task that waits without a deadline was registered without one
        have hdead : reg.deadline = noDeadline :=
          hx.outcome .blocked (by rw [(taskAt_of_holder hi hs hP.1.held).1]; exact hP.1.outcome)
        rcases hreg with ⟨object, hobj, hw⟩ | ⟨-, hd⟩
        · have hsame : (store (.wakeDeadline i) noDeadline : Action Reg Val).apply s.mem (.waitObject i) =
              s.mem (.waitObject i) := apply_of_not_writes (by simp [writes])
          exact .inl ⟨object, hobj, hsame.trans hw⟩
        · refine .inr ⟨?_, hd⟩
          rw [hdead]
          exact update_self _ _ _
      · exact hpub

lemma sound_finish (h : TaskHandle) (o : FinishState) (i : Fin 24) (hs : h.slot = i.val) :
    Sound σ ω t (.finish h o) (finish h o) (fun s => (unfinished t h s.log = false ∧
      (holder h s.log = some t ∧ outcome h s.log = some o)) ∧
      (holder h s.log = some t ∧ (σ → saved t h s.log = true ∨ s.mem (.contextSaved i) = false))) := by
  unfold finish onSlot
  have hslot : h.slot < 24 := hs ▸ i.isLt
  rw [dif_pos hslot]
  have hi' : (⟨h.slot, hslot⟩ : Fin 24) = i := Fin.ext hs
  rw [hi']
  refine sound_load (fun (v : Bool) s => v = true → Finishing σ t h o s) (unseen rfl)
    (fun v => (imp fun _ => frame_finishing h o).stable) ?_ ?_
  · rintro (v : Bool) s hi hin ⟨⟨hb, hh, ho⟩, -, hc⟩ hv rfl
    refine (frame_finishing h o).plain hi hin (plain_load _ _) ⟨hh, hb, ho, ?_⟩
    intro hσ
    rcases hc hσ with hsv | hclear
    · exact hsv
    · exact absurd (hclear.symm.trans hv) Bool.false_ne_true
  · intro (v : Bool)
    cases v with
    | true =>
      refine ⟨unseen rfl, ?_⟩
      intro s hi hP
      exact ⟨h, ⟨rfl, hs, rfl⟩, hP rfl⟩
    | false => exact sound_fails rfl rfl

end Quiet

/-! ## Operations that rouse -/

/-! ### Programs that run alone -/

variable {label : Label}

/-- Alone, the program takes a task of the generation that is blocked in the slot out of its wait. -/
def Rouses (i : Fin 24) (g : ℕ) (p : Program) : Prop :=
  ∀ m, word m i = pack g .blocked → ∃ n, (word (Prog.alone scheduler n p m) i).state ≠ .blocked

lemma rouses_jump (h : Rouses i g (scheduler.body label)) : Rouses i g (.jump label) := by
  intro m hm
  obtain ⟨n, hn⟩ := h m hm
  exact ⟨n + 1, hn⟩

lemma rouses_load {next : StateWord → Program} (h : Rouses i g (next (pack g .blocked))) :
    Rouses i g (.load (.state i) next) := by
  intro m hm
  obtain ⟨n, hn⟩ := h m hm
  refine ⟨n + 1, ?_⟩
  rw [← hm] at hn
  exact hn

lemma rouses_store (hr : Reg.state i ≠ r) (h : Rouses i g next) : Rouses i g (.store r v next) := by
  intro m hm
  have hm' : word (update m r v) i = pack g .blocked := (update_of_ne hr _ _).trans hm
  obtain ⟨n, hn⟩ := h _ hm'
  exact ⟨n + 1, hn⟩

lemma rouses_cas {new : StateWord} {next : Bool → Program} (hnew : new.state ≠ .blocked) :
    Rouses i g (.cas (.state i) (pack g .blocked) new next) := by
  intro m hm
  refine ⟨1, ?_⟩
  have hact : Prog.act? m (.cas (.state i) (pack g .blocked) new next : Program) =
      some (.swap (.state i) (pack g .blocked) new, next true) := if_pos hm
  have halone : Prog.alone scheduler 1 (.cas (.state i) (pack g .blocked) new next : Program) m =
      update m (.state i) new := by
    unfold Prog.alone
    rw [hact]
    rfl
  rw [halone]
  rw [show word (update m (.state i) new) i = new from update_self _ _ _]
  exact hnew

lemma rouses_cas_miss {old new : StateWord} {next : Bool → Program} (hold : old ≠ pack g .blocked)
    (h : Rouses i g (next false)) : Rouses i g (.cas (.state i) old new next) := by
  intro m hm
  obtain ⟨n, hn⟩ := h m hm
  refine ⟨n + 1, ?_⟩
  have hact : Prog.act? m (.cas (.state i) old new next : Program) = some (.miss (.state i) old new, next false) := by
    refine if_neg ?_
    intro hw
    exact hold (hw.symm.trans hm)
  have halone : Prog.alone scheduler (n + 1) (.cas (.state i) old new next : Program) m =
      Prog.alone scheduler n (next false) m := by
    rw [Prog.alone]
    · rw [hact]
      rfl
    · intro label h
      cases h
  rw [halone]
  exact hn

lemma rouses_wakeLoop (hg : g < 2 ^ 56) (caller : WakeCaller) : Rouses i g (wakeLoop i g caller) := by
  refine rouses_load ?_
  rw [if_neg (not_not.mpr (pack_generation hg _))]
  exact rouses_store (by simp) (rouses_store (by simp) (rouses_cas (by simp)))

lemma rouses_stopLoop (hg : g < 2 ^ 56) : Rouses i g (stopLoop i g) := by
  refine rouses_load ?_
  rw [if_neg (not_not.mpr (pack_generation hg _))]
  exact rouses_store (by simp) (rouses_store (by simp) (rouses_cas (by simp)))

/-- A word that is blocked is determined by its generation. -/
theorem eq_pack_blocked (hg : w.generation = g) (hst : w.state = .blocked)
    (hp : w.wakePending = false) : w = pack g .blocked := by
  rcases w with ⟨g', hlt, p, st⟩
  cases hg
  congr 1
  exact (Nat.mod_eq_of_lt hlt).symm

lemma Inv.not_pending (hi : Inv σ ω s) (h : (word s.mem i).state ≠ .running) : (word s.mem i).wakePending = false := by
  rw [← Bool.not_eq_true]
  intro hp
  exact h (hi.pending i hp)

lemma seen_of_settled (h : Settled ω t s) : Seen ω t c p s := by
  intro hω _ i hd hst
  exact (h hω i hd (.inr hst)).elim

lemma seen_of_rouses (hi : Inv σ ω s) (hp : Rouses i g p)
    (h : Settling ω t (fun j w => j = i ∧ w.generation = g) s) : Seen ω t c p s := by
  intro hω _ j hd hst
  obtain ⟨rfl, hg⟩ := h hω j hd (.inr hst)
  refine hp s.mem (eq_pack_blocked hg hst (hi.not_pending ?_))
  rw [hst]
  simp

/-! ### Clearing and changing the word -/

variable {Q : Fin 24 → StateWord → Prop}

/-- A step of the thread itself that clears nothing and writes no state word. -/
theorem settling_plain (ha : Plain a) (h : Settling ω t Q s) : Settling ω t Q (s.push (.did t c a)) := by
  intro hω j hd hr
  have hw : word (s.push (.did t c a)).mem j = word s.mem j := word_push_of_quiet (quiet_did (ha j).1)
  rw [hw] at hr ⊢
  rcases debt_cons.mp hd with ⟨hc, -⟩ | ⟨hd, -⟩
  · obtain ⟨u, c', a', he, -, hf⟩ := clears_spec hc
    cases he
    rw [ha.waitField] at hf
    cases hf
  · exact h hω j hd hr

section

variable (ha : a.writes = some (.waitObject i) ∨ a.writes = some (.wakeDeadline i))
include ha

lemma clears_of_writes (hc : c.rouses = true) : clears (.did t c a : LogEntry T) = some i := by
  rw [clears, if_pos hc, waitField]
  rcases ha with ha | ha <;> rw [ha]

lemma word_push_of_writes (j : Fin 24) : word (s.push (.did t c a)).mem j = word s.mem j := by
  refine word_push_of_quiet (quiet_did ?_)
  rcases ha with ha | ha <;> rw [ha] <;> simp

variable (hload : lastLoad t i s.log = some old) (hmay : ω → ClearsCurrent s t c a) (hc : c.rouses = true)
include hload hmay hc

lemma word_of_clears (hω : ω) : word s.mem i = old := by
  have hlast := hmay hω i (clears_of_writes ha hc)
  rw [hload] at hlast
  exact (Option.some.inj hlast).symm

/-- A step by which the thread clears fields of a slot whose word it knows. -/
theorem settling_clear (hQ : Q i old) (h : Settling ω t Q s) : Settling ω t Q (s.push (.did t c a)) := by
  intro hω j hd hr
  rw [word_push_of_writes ha] at hr ⊢
  rcases debt_cons.mp hd with ⟨hcl, -⟩ | ⟨hd, -⟩
  · obtain rfl : i = j := Option.some.inj ((clears_of_writes ha hc).symm.trans hcl)
    rw [word_of_clears ha hload hmay hc hω]
    exact hQ
  · exact h hω j hd hr

/-- A step by which the thread clears fields of a slot that needs no wake. -/
theorem settled_clear (hold : ¬ old.Rousable) (hQ : ∀ j w, Q j w → j = i) (h : Settling ω t Q s) :
    Settled ω t (s.push (.did t c a)) := by
  intro hω j hd hr
  have hslot : Settling ω t (fun j _ => j = i) (s.push (.did t c a)) :=
    settling_clear ha hload hmay hc rfl fun hω j hd hr => hQ j _ (h hω j hd hr)
  obtain rfl := hslot hω j hd hr
  rw [word_push_of_writes ha, word_of_clears ha hload hmay hc hω] at hr
  exact hold hr

end

/-- The compare-exchange by which the thread settles what it owes. -/
theorem settled_swap {old new : StateWord} (hQ : ∀ j w, Q j w → j = i) (hnew : new.state ≠ .blocked) (h : Settling ω t Q s) :
    Settled ω t (s.push (.did t c (.swap (.state i) old new))) := by
  intro hω j hd hr
  rcases debt_cons.mp hd with ⟨hc, -⟩ | ⟨hd, hset, -⟩
  · obtain ⟨u, c', a', he, -, hf⟩ := clears_spec hc
    cases he
    cases hf
  by_cases hji : j = i
  · subst hji
    rw [settles_of_swapped rfl] at hset
    exact hnew (of_decide_eq_false hset |> not_not.mp)
  have hq : Quiet j (.did t c (.swap (.state i) old new) : LogEntry T) := by
    refine quiet_did ?_
    intro hw
    cases hw
    exact hji rfl
  rw [word_push_of_quiet hq] at hr
  exact hji (hQ j _ (h hω j hd hr))

/-! ### What a rousing thread knows of the word it loaded -/

/-- The handle of the call, if it has one, had not been reclaimed when the call began. -/
def FreshCall (t : T) (c : Call) (s : State T) : Prop := ∀ h, c.handle? = some h → Fresh t h s

lemma frame_freshCall : Frame σ ω t (FreshCall t c) :=
  fun s e he hi hl hf h hh => frame_fresh h s e he hi hl (hf h hh)

/-- The slot and the generation are those of the handle of the call. -/
def Handles (c : Call) (i : Fin 24) (g : ℕ) : Prop := ∀ h, c.handle? = some h → h.slot = i.val ∧ h.generation = g

/-- What the thread knows once it has loaded the word `old` of a slot. -/
structure Loaded (ω : Prop) (t : T) (c : Call) (i : Fin 24) (g : ℕ) (old : StateWord) (s : State T) : Prop where
  settling : Settling ω t (fun j w => j = i ∧ w.generation = g) s
  load : lastLoad t i s.log = some old
  fresh : old.generation = g → FreshCall t c s
  settled : ¬ (old.generation = g ∧ old.Rousable) → Settled ω t s
  pending : old.wakePending = true → old.state = .running
  retired : old.generation = g → old.state = .stopping ∨ old.state = .completed → Retired s i g

lemma stable_loaded (i : Fin 24) (g : ℕ) (old : StateWord) : Stable (outline σ ω) t (Loaded ω t c i g old) := by
  intro s e he hi hl h
  exact {
    settling := stable_settling_generation i g s e he hi hl h.settling
    load := stable_lastLoad (σ := σ) (ω := ω) i old s e he hi hl h.load
    fresh := fun hg => frame_freshCall.stable s e he hi hl (h.fresh hg)
    settled := fun hn => stable_settled s e he hi hl (h.settled hn)
    pending := h.pending
    retired := fun hg hst => hi.retired_push hl (h.retired hg hst) }

lemma loaded_of_load (hh : Handles c i g) (hi : Inv σ ω s)
    (hl : Legal σ ω s (.did t c (.load (.state i) old)))
    (h : Settling ω t (fun j w => j = i ∧ w.generation = g) s) (hw : word s.mem i = old) :
    Loaded ω t c i g old (s.push (.did t c (.load (.state i) old))) where
  settling := settling_plain (plain_load _ _) h
  load := if_pos ⟨rfl, rfl⟩
  fresh := fun hg k hk => by
    obtain ⟨hs, hkg⟩ := hh k hk
    refine fresh_push (fresh_of_current hi ⟨hs.symm, ?_⟩)
    rw [hw, hg, hkg]
  settled := fun hn => by
    refine settling_plain (plain_load _ _) ?_
    intro hω j hd hr
    obtain ⟨rfl, hg⟩ := h hω j hd hr
    rw [hw] at hg hr
    exact hn ⟨hg, hr⟩
  pending := fun hp => by
    rw [← hw] at hp ⊢
    exact hi.pending i hp
  retired := fun hg hst => by
    rw [← hw] at hg hst
    refine hi.retired_push hl (.inr ⟨hg, ?_⟩)
    rcases hst with hst | hst
    · exact .inl hst
    · exact .inr (.inl hst)

lemma Loaded.clear
    (h : Loaded ω t c i g old s) (hi : Inv σ ω s) (hl : Legal σ ω s (.did t c (.store r v)))
    (hg : old.generation = g) (hr : r = .waitObject i ∨ r = .wakeDeadline i) (hmay : ω → ClearsCurrent s t c (.store r v)) (hc : c.rouses = true) :
    Loaded ω t c i g old (s.push (.did t c (.store r v))) := by
  have hw : (store r v : Action Reg Val).writes = some (.waitObject i) ∨
      (store r v : Action Reg Val).writes = some (.wakeDeadline i) := hr.imp (congrArg some) (congrArg some)
  exact {
    settling := settling_clear hw h.load hmay hc ⟨rfl, hg⟩ h.settling
    load := (lastLoad_push (by simp) s.log).trans h.load
    fresh := fun hg k hk => fresh_push (h.fresh hg k hk)
    settled := fun hn =>
      settled_clear hw h.load hmay hc (fun ho => hn ⟨hg, ho⟩) (fun _ _ hQ => hQ.1) h.settling
    pending := h.pending
    retired := fun hg hst => hi.retired_push hl (h.retired hg hst) }

/-- Alone, the program wakes the task if the word that was loaded asks for it. -/
def RousesFrom (i : Fin 24) (g : ℕ) (old : StateWord) (p : Program) : Prop :=
  old.Rousable → (old.wakePending = true → old.state = .running) → Rouses i g p

lemma seen_of_loaded (hp : RousesFrom i g old p) (hi : Inv σ ω s) (h : Loaded ω t c i g old s) : Seen ω t c p s := by
  by_cases hr : old.Rousable
  · exact seen_of_rouses hi (hp hr h.pending) h.settling
  · exact seen_of_settled (h.settled fun hn => hr hn.2)

lemma rousesFrom_store (hr : r = .waitObject i ∨ r = .wakeDeadline i) (h : RousesFrom i g old next) :
    RousesFrom i g old (.store r v next) := by
  intro hold hpend
  refine rouses_store ?_ (h hold hpend)
  rcases hr with rfl | rfl <;> simp

lemma rousesFrom_settle {old new : StateWord} {done : Program}
    (hg : old.generation = g) (hnew : new.state ≠ .blocked) (hlabel : Rouses i g (.jump label)) :
    RousesFrom i g old (.cas (.state i) old new fun b => if b then done else .jump label) := by
  intro hr hpend
  by_cases hb : old.state = .blocked
  · have hold : old = pack g .blocked := by
      refine eq_pack_blocked hg hb ?_
      rw [← Bool.not_eq_true]
      intro hp
      rw [hpend hp] at hb
      cases hb
    rw [hold]
    exact rouses_cas hnew
  · refine rouses_cas_miss ?_ hlabel
    rintro rfl
    exact hb rfl

lemma rousesFrom_of_not_rousable (h : ¬ old.Rousable) : RousesFrom i g old p := fun hr => absurd hr h

lemma sound_rouse_load (hh : Handles c i g) {next : StateWord → Program} (hp : Rouses i g (.load (.state i) next))
    (hnext : ∀ old, Sound σ ω t c (next old) (Loaded ω t c i g old)) :
    Sound σ ω t c (.load (.state i) next) (Settling ω t fun j w => j = i ∧ w.generation = g) :=
  sound_load (fun v => Loaded ω t c i g v) (fun _ hi hP => seen_of_rouses hi hp hP)
    (stable_loaded i g) (fun _ _ hi hin hP hw => loaded_of_load hh hi (legal_plain hin (plain_load _ _)) hP hw) hnext

lemma sound_clear (hc : c.rouses = true) (hg : old.generation = g)
    (hr : r = .waitObject i ∨ r = .wakeDeadline i) (hp : RousesFrom i g old next)
    (hnext : Sound σ ω t c next (Loaded ω t c i g old)) : Sound σ ω t c (.store r v next) (Loaded ω t c i g old) := by
  refine sound_store (fun s hi hP => seen_of_loaded (rousesFrom_store hr hp) hi hP) (stable_loaded i g old) ?_ hnext
  intro s hi hin hP hmay
  have hw : (store r v : Action Reg Val).writes = some (.waitObject i) ∨
      (store r v : Action Reg Val).writes = some (.wakeDeadline i) := hr.imp (congrArg some) (congrArg some)
  have hl : Legal σ ω s (.did t c (.store r v)) := legal_clear hin hc hw hmay
  exact ⟨hl, hP.clear hi hl hg hr hmay hc⟩

/-- Both fields are cleared before the word is changed. -/
theorem sound_clears (hc : c.rouses = true) (hg : old.generation = g) (hp : RousesFrom i g old next)
    (hnext : Sound σ ω t c next (Loaded ω t c i g old)) :
    Sound σ ω t c (.store (.wakeDeadline i) noDeadline <| .store (.waitObject i) (0 : ℕ) next) (Loaded ω t c i g old) :=
  sound_clear hc hg (.inr rfl) (rousesFrom_store (.inl rfl) hp) (sound_clear hc hg (.inl rfl) hp hnext)

lemma sound_settle {new : StateWord} {done : Program} {P1 : State T → Prop}
    (hg : old.generation = g) (hnew : new.state ≠ .blocked) (hlabel : Rouses i g (.jump label))
    (hpre : ∀ s, Settling ω t (fun j w => j = i ∧ w.generation = g) s → pre σ ω label t c s)
    (hswap : ∀ s : State T, Swap σ s.log t i old new) (hst : Stable (outline σ ω) t P1)
    (hP1 : ∀ s : State T, Loaded ω t c i g old s → Settled ω t (s.push (.did t c (.swap (.state i) old new))) →
      P1 (s.push (.did t c (.swap (.state i) old new)))) (hdone : Sound σ ω t c done P1) :
    Sound σ ω t c (.cas (.state i) old new fun b => if b then done else .jump label) (Loaded ω t c i g old) := by
  refine sound_cas (fun s hi hP => seen_of_loaded (rousesFrom_settle hg hnew hlabel) hi hP) hst
    (stable_settling_generation i g) ?_ ?_ hdone ?_
  · intro s hi hin hP hw _
    exact ⟨legal_swap hin hw (hswap s), hP1 s hP (settled_swap (fun _ _ hQ => hQ.1) hnew hP.settling)⟩
  · intro s hi hin hP _
    exact settling_plain (by simp [Plain, writes]) hP.settling
  · exact ⟨fun s hi hP => seen_of_rouses hi hlabel hP, fun s hi hP => hpre s hP⟩

/-! ### Waking -/

variable {caller : WakeCaller}

lemma WakeCaller.Of.rouses (h : caller.Of c i g) : c.rouses = true := by
  cases caller with
  | self =>
    obtain ⟨k, rfl, -⟩ := h
    rfl
  | signal object rest woken =>
    obtain ⟨rfl, -⟩ := h
    rfl

/-- The generation that a wake looks for is one that a word can have. -/
theorem WakeCaller.Of.generation_lt (h : caller.Of c i g) : g < 2 ^ 56 := by
  cases caller with
  | self =>
    obtain ⟨k, -, -, rfl⟩ := h
    exact k.generation_lt
  | signal object rest woken => exact h.2

lemma WakeCaller.Of.handles (h : caller.Of c i g) : Handles c i g := by
  intro k hk
  cases caller with
  | self =>
    obtain ⟨k', rfl, hs, hg⟩ := h
    cases hk
    exact ⟨hs, hg⟩
  | signal object rest woken =>
    obtain ⟨rfl, -⟩ := h
    cases hk

lemma answers_roused (hset : Settled ω t s) (hfresh : reply.succeeded = true → FreshCall t c s)
    (hstop : ∀ h, c = .requestStop h → reply = .flag true → ∃ i : Fin 24, i.val = h.slot ∧ Retired s i h.generation)
    (hc : c.rouses = true) : Answers ω s t c reply where
  fresh := fun h hh hr => hfresh hr h hh
  stop := hstop
  reclaim := fun h hh => by subst hh; cases hc
  save := fun h rsp hh => by subst hh; cases hc
  registers := fun _ h r hreg => by rw [(registers_call hreg).1] at hc; cases hc
  settled := fun hω i hd hr => hset hω i hd hr

lemma sound_wakeDone (hof : caller.Of c i g) (result : Bool) :
    Sound σ ω t c (wakeDone caller result) (fun s => Settled ω t s ∧ (result = true → FreshCall t c s)) := by
  cases caller with
  | self =>
    refine sound_ret (fun s hi hP => seen_of_settled hP.1) ?_
    rintro s hi hin ⟨hset, hf⟩
    refine answers_roused hset hf ?_ hof.rouses
    intro h hh
    obtain ⟨k, rfl, -⟩ := hof
    cases hh
  | signal object rest woken =>
    cases result with
    | true =>
      refine sound_fetch (fun s hi hP => seen_of_settled hP.1) stable_settled ?_ ?_ ?_
      · simp [Plain, writes]
      · intro v s hi hl hP
        exact settling_plain (by simp [Plain, writes]) hP.1
      · intro v
        exact ⟨fun _ _ => seen_of_settled, fun s hi hP => ⟨hof.1, hP⟩⟩
    | false => exact ⟨fun s hi hP => seen_of_settled hP.1, fun s hi hP => ⟨hof.1, hP.1⟩⟩

lemma stable_wakeDone (result : Bool) :
    Stable (outline σ ω) t (fun s : State T => Settled ω t s ∧ (result = true → FreshCall t c s)) :=
  stable_settled.and (imp fun _ => frame_freshCall.stable)

/-- The wake is done when the word that was loaded needs no change. -/
theorem sound_wakeDone_of_loaded (hof : caller.Of c i g)
    (result : Bool) (hr : result = true → old.generation = g) (hn : ¬ (old.generation = g ∧ old.Rousable)) :
    Sound σ ω t c (wakeDone caller result) (Loaded ω t c i g old) :=
  (sound_wakeDone hof result).mono fun _ _ hP => ⟨hP.settled hn, fun hres => hP.fresh (hr hres)⟩

lemma sound_wakeLoop (hof : caller.Of c i g) :
    Sound σ ω t c (wakeLoop i g caller) (Settling ω t fun j w => j = i ∧ w.generation = g) := by
  have hg := hof.generation_lt
  have hload := rouses_wakeLoop (i := i) hg caller
  have hlabel : Rouses i g (.jump (.wake i g caller)) := rouses_jump hload
  have hc := hof.rouses
  refine sound_rouse_load hof.handles hload ?_
  intro old
  split
  · rename_i hne
    exact sound_wakeDone_of_loaded hof false (by simp) (fun h => hne h.1)
  rename_i hgen
  rw [not_not] at hgen
  have hfresh : ∀ (new : StateWord) (s : State T), Loaded ω t c i g old s →
      Settled ω t (s.push (.did t c (.swap (.state i) old new))) →
      Settled ω t (s.push (.did t c (.swap (.state i) old new))) ∧
        (true = true → FreshCall t c (s.push (.did t c (.swap (.state i) old new)))) := by
    intro new s hP hset
    exact ⟨hset, fun _ k hk => fresh_push (hP.fresh hgen k hk)⟩
  split
  · -- a blocked task
    rename_i hst
    refine sound_clears hc hgen (rousesFrom_settle hgen (by simp) hlabel) (sound_settle hgen (by simp) hlabel
      (fun s hs => ⟨hof, hs⟩) ?_ (stable_wakeDone true) (hfresh _) (sound_wakeDone hof true))
    intro s
    rw [← hgen]
    exact .wakeBlocked hst
  · -- a task that runs
    rename_i hst
    split
    · rename_i hwake
      have hn : ¬ old.Rousable := by
        have hp := congrArg StateWord.wakePending hwake
        rintro (⟨-, hr⟩ | hr)
        · rw [hr] at hp
          cases hp
        · rw [hst] at hr
          cases hr
      exact sound_clear hc hgen (.inl rfl) (rousesFrom_of_not_rousable hn)
        (sound_wakeDone_of_loaded hof true (fun _ => hgen) (fun h => hn h.2))
    · have hnew : old.withWake.state ≠ .blocked := by
        rw [withWake_state, hst]
        simp
      exact sound_clear hc hgen (.inl rfl) (rousesFrom_settle hgen hnew hlabel)
        (sound_settle hgen hnew hlabel (fun s hs => ⟨hof, hs⟩) (fun s => .wakeRunning hst) (stable_wakeDone true)
          (hfresh _) (sound_wakeDone hof true))
  · -- a task that will run
    rename_i hst
    have hn : ¬ old.Rousable := by
      rintro (⟨hr, -⟩ | hr) <;> rw [hst] at hr <;> cases hr
    exact sound_clear hc hgen (.inl rfl) (rousesFrom_of_not_rousable hn)
      (sound_wakeDone_of_loaded hof true (fun _ => hgen) (fun h => hn h.2))
  · rename_i hb hr _
    refine sound_wakeDone_of_loaded hof false (by simp) ?_
    rintro ⟨-, ⟨hst, -⟩ | hst⟩
    · exact hr hst
    · exact hb hst

/-! ### Stopping -/

lemma sound_stopLoop (hs : h.slot = i.val) : Sound σ ω t (.requestStop h) (stopLoop i h.generation)
      (Settling ω t fun j w => j = i ∧ w.generation = h.generation) := by
  have hg := h.generation_lt
  have hload := rouses_stopLoop (i := i) hg
  have hlabel : Rouses i h.generation (.jump (.requestStop i h.generation)) := rouses_jump hload
  have hhandles : Handles (.requestStop h) i h.generation := by
    intro k hk
    cases hk
    exact ⟨hs, rfl⟩
  have hpre : ∀ s : State T, Settling ω t (fun j w => j = i ∧ w.generation = h.generation) s →
      pre σ ω (.requestStop i h.generation) t (.requestStop h) s := fun s hP => ⟨⟨h, rfl, hs, rfl⟩, hP⟩
  have hdone : Sound σ ω t (.requestStop h) (.ret (.flag true)) (fun s =>
      Settled ω t s ∧ FreshCall t (.requestStop h) s ∧ Retired s i h.generation) := by
    refine sound_ret (fun s hi hP => seen_of_settled hP.1) ?_
    rintro s hi hin ⟨hset, hf, hret⟩
    refine answers_roused hset (fun _ => hf) ?_ rfl
    intro k hk _
    cases hk
    exact ⟨i, hs.symm, hret⟩
  refine sound_rouse_load hhandles hload ?_
  intro old
  have hfails : ¬ (old.generation = h.generation ∧ old.Rousable) →
      Sound σ ω t (.requestStop h) (.ret (.flag false)) (Loaded ω t (.requestStop h) i h.generation old) := by
    intro hn
    refine sound_ret (fun s hi hP => seen_of_settled (hP.settled hn)) ?_
    intro s hi hin hP
    exact answers_of_failed (hP.settled hn) rfl
  split
  · rename_i hne
    exact hfails (fun h => hne h.1)
  rename_i hgen
  rw [not_not] at hgen
  -- the branch that takes the task out of its state
  have hretire : ∀ next : TaskPhase, next = .stopping ∨ next = .completed →
      (∀ s : State T, Swap σ s.log t i old (pack old.generation next)) →
      Sound σ ω t (.requestStop h) (.store (.wakeDeadline i) noDeadline <| .store (.waitObject i) (0 : ℕ) <|
        .cas (.state i) old (pack h.generation next) fun done =>
          if done then .ret (.flag true) else .jump (.requestStop i h.generation))
        (Loaded ω t (.requestStop h) i h.generation old) := by
    intro next hnext hswap
    have hnew : (pack h.generation next).state ≠ .blocked := by
      rcases hnext with rfl | rfl <;> simp
    refine sound_clears rfl hgen (rousesFrom_settle hgen hnew hlabel) ?_
    refine sound_settle hgen hnew hlabel hpre ?_
      (stable_settled.and (frame_freshCall.stable.and (stable fun _ _ _ hi hl h => hi.retired_push hl h))) ?_ hdone
    · intro s
      rw [← hgen]
      exact hswap s
    intro s hP hset
    refine ⟨hset, fun k hk => fresh_push (hP.fresh hgen k hk), .inr ⟨?_, ?_⟩⟩
    · rw [word_push_swapped rfl]
      exact pack_generation hg _
    · rw [word_push_swapped rfl]
      rcases hnext with rfl | rfl <;> simp
  have hstopped : old.state = .stopping ∨ old.state = .completed →
      Sound σ ω t (.requestStop h) (.ret (.flag true)) (Loaded ω t (.requestStop h) i h.generation old) := by
    intro hst
    refine hdone.mono ?_
    intro s hi hP
    refine ⟨hP.settled ?_, hP.fresh hgen, hP.retired hgen hst⟩
    rintro ⟨-, ⟨hr, -⟩ | hr⟩ <;> rcases hst with hst | hst <;> rw [hst] at hr <;> cases hr
  split
  · rename_i hst
    exact hretire .stopping (.inl rfl) (fun s => .stopRunning hst)
  · rename_i hst
    exact hretire .completed (.inr rfl) (fun s => .stopWaiting (.inl hst))
  · rename_i hst
    exact hretire .completed (.inr rfl) (fun s => .stopWaiting (.inr hst))
  · rename_i hst
    exact hstopped (.inl hst)
  · rename_i hst
    exact hstopped (.inr hst)
  · rename_i hrun _ hblk _ _
    refine hfails ?_
    rintro ⟨-, ⟨hst, -⟩ | hst⟩
    · exact hrun hst
    · exact hblk hst

/-! ### Signals and deadlines -/

lemma sound_gives_up (hr : reply.succeeded = false) : Sound σ ω t c (.ret reply) (Settled ω t) :=
  sound_ret (fun _ _ => seen_of_settled) fun _ _ _ hP => answers_of_failed hP hr

lemma sound_signalLoop (object : ℕ) (slots : List (Fin 24)) (woken : ℕ) :
    Sound σ ω t (.signalEventObject object) (signalLoop object slots woken) (Settled ω t) := by
  have hnext : ∀ rest n, Sound σ ω t (.signalEventObject object) (.jump (.signal object rest n)) (Settled ω t) :=
    fun rest n => ⟨fun _ _ => seen_of_settled, fun s hi hP => ⟨rfl, hP⟩⟩
  cases slots with
  | nil => exact sound_gives_up rfl
  | cons i rest =>
    refine sound_load (fun _ => Settled ω t) (fun _ _ => seen_of_settled) (fun _ => stable_settled)
      (fun v s hi hin hP _ => settling_plain (plain_load _ _) hP) ?_
    intro waiting
    split
    · exact hnext rest woken
    refine sound_load (fun _ => Settled ω t) (fun _ _ => seen_of_settled) (fun _ => stable_settled)
      (fun v s hi hin hP _ => settling_plain (plain_load _ _) hP) ?_
    intro (w : StateWord)
    split
    · exact ⟨fun _ _ => seen_of_settled, fun s hi hP => ⟨⟨rfl, w.generation_lt⟩, fun hω j hd hr => (hP hω j hd hr).elim⟩⟩
    · exact hnext rest woken

/-- What a thread that wakes a due task knows of it. -/
def Due (ω : Prop) (t : T) (i : Fin 24) (old : StateWord) (s : State T) : Prop :=
  Settling ω t (fun j w => j = i ∧ w = old) s ∧ lastLoad t i s.log = some old

lemma stable_due (i : Fin 24) (hst : old.state = .blocked) : Stable (outline σ ω) t (Due ω t i old) := by
  refine (stable_settling ?_).and (stable_lastLoad i old)
  rintro j w hact ⟨-, rfl⟩
  rcases hact with hact | hact <;> rw [hst] at hact <;> cases hact

lemma seen_of_due (hp : Rouses i old.generation p) (hi : Inv σ ω s) (h : Due ω t i old s) : Seen ω t c p s := by
  refine seen_of_rouses hi hp ?_
  intro hω j hd hr
  obtain ⟨hj, hw⟩ := h.1 hω j hd hr
  exact ⟨hj, congrArg StateWord.generation hw⟩

lemma sound_wakeDueFrom (now : ℕ) (slots : List (Fin 24)) (woken : ℕ) :
    Sound σ ω t (.wakeDue now) (wakeDueFrom now slots woken) (Settled ω t) := by
  induction slots generalizing woken with
  | nil => exact sound_gives_up rfl
  | cons i rest ih =>
    have hstable : ∀ old : StateWord, Stable (outline σ ω) t (fun s : State T =>
        (Settled ω t s ∧ lastLoad t i s.log = some old) ∧ (old.state = .blocked → old.wakePending = false)) :=
      fun old => (stable_settled.and (stable_lastLoad i old)).and (const _)
    refine sound_load (fun (old : StateWord) s => (Settled ω t s ∧ lastLoad t i s.log = some old) ∧
        (old.state = .blocked → old.wakePending = false)) (fun _ _ => seen_of_settled) hstable ?_ ?_
    · intro (old : StateWord) s hi hin hP hw
      refine ⟨⟨settling_plain (plain_load _ _) hP, if_pos ⟨rfl, rfl⟩⟩, ?_⟩
      intro hst
      have hword : word s.mem i = old := hw
      rw [← hword] at hst ⊢
      refine hi.not_pending ?_
      rw [hst]
      simp
    intro (old : StateWord)
    split
    · exact (ih woken).mono fun s hi hP => hP.1.1
    rename_i hst
    rw [not_not] at hst
    refine sound_load (fun _ s => (Settled ω t s ∧ lastLoad t i s.log = some old) ∧
        (old.state = .blocked → old.wakePending = false)) (fun s hi hP => seen_of_settled hP.1.1) (fun _ => hstable old) ?_ ?_
    · rintro v s hi hin ⟨⟨hset, hload⟩, hpend⟩ _
      exact ⟨⟨settling_plain (plain_load _ _) hset, (lastLoad_push (by simp) s.log).trans hload⟩, hpend⟩
    intro (deadline : ℕ)
    split
    · exact (ih woken).mono fun s hi hP => hP.1.1
    refine Safe.of_pure (fun s hP => hP.2 hst) ?_
    intro hpend
    have hold : old = pack old.generation .blocked := eq_pack_blocked rfl hst hpend
    have hrouse : ∀ k : Bool → Program,
        Rouses i old.generation (.cas (.state i) old (pack old.generation .runnable) k) := by
      intro k
      have hcas : Rouses i old.generation
        (.cas (.state i) (pack old.generation .blocked) (pack old.generation .runnable) k) := rouses_cas (by simp)
      rw [← hold] at hcas
      exact hcas
    refine sound_cas (fun s hi hP => seen_of_settled hP.1.1) (stable_due i hst) stable_settled ?_ ?_ ?_ (ih woken)
    · rintro s hi hin ⟨⟨hset, hload⟩, -⟩ _ hmay
      refine ⟨legal_clear hin rfl (.inr rfl) hmay, ?_, (lastLoad_push (by simp) s.log).trans hload⟩
      refine settling_clear (.inr rfl) hload hmay rfl ⟨rfl, rfl⟩ ?_
      intro hω j hd hr
      exact (hset hω j hd hr).elim
    · rintro s hi hin ⟨⟨hset, -⟩, -⟩ _
      exact settling_plain (by simp [Plain, writes]) hset
    · refine sound_store (fun s hi hP => seen_of_due (rouses_store (by simp) (hrouse _)) hi hP) (stable_due i hst) ?_ ?_
      · rintro s hi hin ⟨hset, hload⟩ hmay
        exact ⟨legal_clear hin rfl (.inl rfl) hmay, settling_clear (.inl rfl) hload hmay rfl ⟨rfl, rfl⟩ hset,
          (lastLoad_push (by simp) s.log).trans hload⟩
      refine sound_cas (fun s hi hP => seen_of_due (hrouse _) hi hP) stable_settled stable_settled ?_ ?_
        (ih (woken + 1)) (ih woken)
      · rintro s hi hin ⟨hset, -⟩ hw _
        exact ⟨legal_swap hin hw (.wakeBlocked hst), settled_swap (fun _ _ hQ => hQ.1) (by simp) hset⟩
      · rintro s hi hin ⟨hset, -⟩ hne hω j hd hr
        obtain ⟨rfl, hw⟩ := settling_plain (by simp [Plain, writes]) hset hω j hd hr
        exact hne hw

/-! ## The whole scheduler -/

/-- The labels keep their assertions. -/
theorem stable_pre (label : Label) : Stable (outline σ ω) t (pre σ ω label t c) := by
  cases label with
  | wake i g | requestStop i g => exact (Stable.const _).and (stable_settling_generation i g)
  | signal object rest woken => exact (Stable.const _).and stable_settled
  | finish i g o =>
    rintro s e he hi hl ⟨h, hh, hf⟩
    exact ⟨h, hh, (frame_finishing h o).stable s e he hi hl hf⟩

lemma sound_label (label : Label) : Sound σ ω t c (scheduler.body label) (pre σ ω label t c) := by
  cases label with
  | wake i g caller =>
    refine Safe.of_pure (fun s hP => hP.1) ?_
    intro hof
    exact (sound_wakeLoop hof).mono fun s hi hP => hP.2
  | requestStop i g =>
    refine Safe.of_pure (fun s hP => hP.1) ?_
    rintro ⟨h, rfl, hs, rfl⟩
    exact (sound_stopLoop hs).mono fun s hi hP => hP.2
  | finish i g o =>
    refine Safe.of_pure (q := ∃ h : TaskHandle, c = .finish h o ∧ h.slot = i.val ∧ h.generation = g) ?_ ?_
    · rintro s ⟨h, hh, -⟩
      exact ⟨h, hh⟩
    rintro ⟨h, rfl, hs, rfl⟩
    refine (sound_finishLoop hs o).mono ?_
    rintro s hi ⟨k, ⟨hk, -, -⟩, hf⟩
    cases hk
    exact hf
  | signal object rest woken =>
    refine Safe.of_pure (fun s hP => hP.1) ?_
    rintro rfl
    exact (sound_signalLoop object rest woken).mono fun s hi hP => hP.2

/-- A call that may be begun leaves what its program is safe from. -/
abbrev Entered (σ ω : Prop) (t : T) (c : Call) (p : Program) : Prop := ∃ P, Stable (outline σ ω) t P ∧
  (∀ s, Inv σ ω s → inCall t s.log = none → MayCall s t c ∧ (σ → SavesFirst s t c) →
    Legal σ ω s (.called t c) ∧ P (s.push (.called t c))) ∧ Sound σ ω t c p P

/-- A call that nothing has to be known for. -/
theorem call_of_true (h : Sound σ ω t c p (fun _ => True)) : Entered σ ω t c p :=
  ⟨_, const True, fun _ _ hin hmay => ⟨legal_called hin hmay, trivial⟩, h⟩

/-- A thread that begins a call owes no wake. -/
theorem settled_of_called (hi : Inv σ ω s) (hin : inCall t s.log = none) : Settled ω t (s.push (.called t c)) := by
  intro _ j hd
  rcases debt_cons.mp hd with ⟨hc, -⟩ | ⟨hd, -⟩
  · cases hc
  · obtain ⟨c', hin', -⟩ := hi.debt t j hd
    rw [hin] at hin'
    cases hin'

lemma call_of_settled (h : Sound σ ω t c p (Settled ω t)) : Entered σ ω t c p :=
  ⟨_, stable_settled, fun _ hi hin hmay => ⟨legal_called hin hmay, settled_of_called hi hin⟩, h⟩

lemma holder_called {u : T} (hh : holder h s.log = some u) : holder h (s.push (.called t c)).log = some u := by
  refine holder_cons.mpr (.inr ⟨?_, ?_, hh⟩)
  · intro hc
    cases hc
  · exact nofun

lemma call_of_registering (hc : registering (.called t c : LogEntry T) = some h)
    (hmay : ∀ s : State T, MayCall s t c → unfinished t h s.log = true)
    (hp : Sound σ ω t c p (fun s => holder h s.log = some t ∧ (ω → registration h s.log = none))) : Entered σ ω t c p := by
  refine ⟨_, (frame_unregistered h).stable, ?_, hp⟩
  intro s hi hin hm
  refine ⟨legal_called hin hm, holder_called (hi.unfinished t h (hmay s hm.1)).1, ?_⟩
  intro _
  rw [Option.eq_none_iff_forall_ne_some]
  intro r hr
  exact (registration_cons.mp hr).2.1 hc

lemma sound_call (t : T) (c : Call) : Entered σ ω t c (scheduler.code c) := by
  cases c with
  | onlineCpu cpu => exact call_of_true (sound_onlineCpu cpu)
  | spawn entry addressSpace launch => exact call_of_true (sound_spawnInternal entry addressSpace launch)
  | armDeadline h deadline => exact call_of_registering rfl (fun _ hm => hm) (sound_armDeadline h deadline)
  | waitForEventObject h object deadline =>
    exact call_of_registering rfl (fun _ hm => hm) (sound_waitForEventObject h object deadline)
  | signalEventObject object =>
    refine call_of_settled ?_
    dsimp only [scheduler]
    split
    · exact sound_gives_up rfl
    · exact ⟨fun _ _ => seen_of_settled, fun s hi hP => ⟨rfl, hP⟩⟩
  | wakeDue now => exact call_of_settled (sound_wakeDueFrom now _ 0)
  | wake h | requestStop h =>
    refine call_of_settled ?_
    dsimp only [scheduler]
    unfold onSlot
    split
    · exact ⟨fun _ _ => seen_of_settled, fun s hi hP => ⟨⟨h, rfl, rfl, rfl⟩, fun hω j hd hr => (hP hω j hd hr).elim⟩⟩
    · exact sound_gives_up rfl
  | claimNext cpu => exact call_of_true (sound_claimNext cpu)
  | saveContext h rsp =>
    refine ⟨_, ((imp fun _ => frame_holder h).and (frame_unsaved h)).stable, ?_, sound_saveContext h rsp⟩
    intro s hi hin hm
    refine ⟨legal_called hin hm, fun hσ => holder_called (hi.unsaved hσ t h hm.1).1, ?_⟩
    rw [← Bool.not_eq_true]
    intro hu
    rcases unsaved_cons.mp hu with ⟨hc, -⟩ | ⟨-, hne⟩
    · cases hc
    · exact hne rsp rfl
  | finish h o =>
    by_cases hslot : h.slot < 24
    · refine ⟨_, ((frame_begun h).stable.and (frame_outcome h o).stable).and (stable_context rfl),
        ?_, sound_finish h o ⟨h.slot, hslot⟩ rfl⟩
      intro s hi hin hm
      have hheld := holder_called (t := t) (c := .finish h o) (hi.unfinished t h hm.1).1
      refine ⟨legal_called hin hm, ⟨?_, hheld, ?_⟩, hheld, ?_⟩
      · rw [← Bool.not_eq_true]
        intro hu
        rcases unfinished_cons.mp hu with ⟨hc, -⟩ | ⟨-, hne⟩
        · cases hc
        · exact hne o rfl
      · refine outcome_cons.mpr ⟨?_, .inl ⟨t, rfl⟩⟩
        exact nofun
      · intro hσ
        rcases hm.2 hσ with hsv | hclear
        · refine .inl (saved_cons.mpr ⟨?_, .inr hsv⟩)
          rintro ⟨hc, -⟩
          cases hc
        · exact .inr (hclear ⟨h.slot, hslot⟩ rfl)
    · refine call_of_true ?_
      dsimp only [scheduler, finish, onSlot]
      rw [dif_neg hslot]
      exact sound_fails rfl rfl
  | reclaimCompleted h =>
    by_cases hlt : h.generation + 1 < 2 ^ 56
    · exact call_of_true (sound_reclaimCompleted h hlt)
    · -- such a call may not be made
      refine ⟨_, const False, ?_, Safe.of_false _⟩
      intro s hi hin hm
      exact absurd hm.1 hlt

/-- **The scheduler keeps the protocol of its state words.** -/
theorem proved (σ ω : Prop) : Proved (outline σ ω : Outline T Reg Val Label Call Reply) (rules σ ω) scheduler new where
  start := Inv.start
  keeps := fun s e hi hl => hi.push hl
  call := sound_call
  label := fun label t c => ⟨stable_pre label, sound_label label⟩

end LogOS.Kernel.Scheduler
