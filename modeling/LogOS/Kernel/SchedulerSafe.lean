import LogOS.Kernel.SchedulerInv

/-!
# Every operation of the scheduler is safe

The proof outline of the operations.  What a thread knows at a point of its program is a conjunction of a few facts that
the other threads cannot change: that it has reserved a slot, that it holds a task, that the handle it was called with was
not reclaimed before, and which slots it owes a wake.  Each of them has one lemma that says which entries keep it.
-/

set_option linter.unusedSectionVars false

namespace LogOS.Kernel.Scheduler

open Lib.Interleaving Option Bool

variable {T : Type} [DecidableEq T] {σ ω : Prop} {s : State T} {e : LogEntry T} {t : T} {c : Call}

/-! ## What a thread knows -/

/-- The thread has reserved the slot, whose word is `w`. -/
def Owned (t : T) (i : Fin 24) (k : Bool) (w : StateWord) (s : State T) : Prop :=
  initializer i s.log = some (t, k) ∧ word s.mem i = w

/-- The handle had not been reclaimed when the thread began its call. -/
def Fresh (t : T) (h : TaskHandle) (s : State T) : Prop := ¬ reclaimed h (callLog t s.log)

/-- Where the thread still owes a wake, `Q` says what it knows of the slot. -/
def Settling (ω : Prop) (t : T) (Q : Fin 24 → StateWord → Prop) (s : State T) : Prop :=
  ω → ∀ j, debt t j s.log = true → (word s.mem j).Rousable → Q j (word s.mem j)

/-- The thread owes no wake. -/
def Settled (ω : Prop) (t : T) : State T → Prop := Settling ω t fun _ _ => False

/-- What the thread knows on its way through `finish`. -/
structure Finishing (σ : Prop) (t : T) (h : TaskHandle) (o : FinishState) (s : State T) : Prop where
  held : holder h s.log = some t
  begun : unfinished t h s.log = false
  outcome : outcome h s.log = some o
  saved : σ → saved t h s.log = true

/-- The call that runs a wake. -/
def WakeCaller.Of (c : Call) (i : Fin 24) (generation : ℕ) : WakeCaller → Prop
  | .self => ∃ h : TaskHandle, c = .wake h ∧ h.slot = i.val ∧ h.generation = generation
  | .signal object _ _ => c = .signalEventObject object ∧ generation < 2 ^ 56

/-- What is known at the start of each loop. -/
def pre (σ ω : Prop) : Label → T → Call → State T → Prop
  | .wake i generation caller, t, c, s => caller.Of c i generation ∧
      Settling ω t (fun j w => j = i ∧ w.generation = generation) s
  | .requestStop i generation, t, c, s =>
      (∃ h : TaskHandle, c = .requestStop h ∧ h.slot = i.val ∧ h.generation = generation) ∧
      Settling ω t (fun j w => j = i ∧ w.generation = generation) s
  | .finish i generation o, t, c, s => ∃ h : TaskHandle, (c = .finish h o ∧ h.slot = i.val ∧ h.generation = generation) ∧
      Finishing σ t h o s
  | .signal object _ _, t, c, s => c = .signalEventObject object ∧ Settled ω t s

/-- A thread that owes a blocked task a wake would wake it if it ran alone. -/
def Seen (ω : Prop) (t : T) (c : Call) (p : Program) (s : State T) : Prop :=
  ω → c.rouses = true → ∀ i, debt t i s.log = true → (word s.mem i).state = .blocked →
    ∃ n, (word (Prog.alone scheduler n p s.mem) i).state ≠ .blocked

def outline (σ ω : Prop) : Outline T Reg Val Label Call Reply where
  Inv := Inv σ ω
  Legal := Legal σ ω
  pre := pre σ ω
  Seen := Seen ω

/-! ## Which entries keep what a thread knows -/

variable {a : Action Reg Val} {i : Fin 24} {h : TaskHandle}

/-- An entry of another thread, or a step of this one that writes no state word. -/
def Passes (t : T) (e : LogEntry T) : Prop := e.thread ≠ t ∨ ∃ c a, e = .did t c a ∧ ∀ i, a.writes ≠ some (.state i)

/-- An assertion that such entries keep. -/
def Frame (σ ω : Prop) (t : T) (P : State T → Prop) : Prop :=
  ∀ s e, Passes t e → Inv σ ω s → Legal σ ω s e → P s → P (s.push e)

lemma Frame.stable {P : State T → Prop} (h : Frame σ ω t P) : Stable (outline σ ω) t P :=
  fun s e he hi hl hP => h s e (.inl he) hi hl hP

lemma Frame.and {P Q : State T → Prop} (hP : Frame σ ω t P) (hQ : Frame σ ω t Q) : Frame σ ω t (fun s => P s ∧ Q s) :=
  fun s e he hi hl h => ⟨hP s e he hi hl h.1, hQ s e he hi hl h.2⟩

lemma Frame.const (p : Prop) : Frame σ ω t (fun _ : State T => p) := fun _ _ _ _ _ h => h

lemma Frame.imp {p : Prop} {P : State T → Prop} (h : p → Frame σ ω t P) : Frame σ ω t (fun s => p → P s) :=
  fun s e he hi hl hP hp => h hp s e he hi hl (hP hp)

lemma quiet_did (ha : a.writes ≠ some (.state i)) : Quiet i (.did t c a : LogEntry T) := by
  constructor
  · intro old new h
    unfold swapped at h
    split at h
    · rename_i heq
      cases heq
      exact ha (by cases h; rfl)
    · rename_i heq
      cases heq
      exact ha (by cases h; rfl)
    · cases h
  · intro new h
    unfold stored at h
    split at h
    · rename_i heq
      cases heq
      exact ha (by cases h; rfl)
    · cases h

lemma claims_did (ha : ∀ i, a.writes ≠ some (.state i)) : claims (.did t c a : LogEntry T) = none := by
  rw [eq_none_iff_forall_ne_some]
  intro h hc
  obtain ⟨i, old, new, hsw, -⟩ := claims_spec hc
  exact (quiet_did (ha i)).1 _ _ hsw

lemma finishes_did (ha : ∀ i, a.writes ≠ some (.state i)) : finishes (.did t c a : LogEntry T) = none := by
  rw [eq_none_iff_forall_ne_some]
  intro h hc
  obtain ⟨i, old, new, hsw, -⟩ := finishes_spec hc
  exact (quiet_did (ha i)).1 _ _ hsw

lemma frame_owned (i : Fin 24) (k : Bool) (w : StateWord) : Frame σ ω t (Owned t i k w) := by
  rintro s e he hi hl ⟨hown, hw⟩
  have hres : (word s.mem i).state = .initializing := by
    rw [hi.reserved i, hown]
    rfl
  rcases hl.word_cases i with ⟨new, -, -, hswap⟩ | ⟨new, hst, -, hpub⟩ | ⟨hw', hq⟩
  · cases hswap with
    | stopWaiting h | finish next h => rcases h with h | h <;> rw [h] at hres <;> cases hres
    | _ h => rw [h] at hres; cases hres
  · -- only the thread itself publishes the word, and it does so with a store
    have hthread : e.thread = t := by
      cases hpub with
      | spawned h | vacated h => rw [hown] at h; cases h; rfl
    rcases he with he | ⟨c, a, rfl, ha⟩
    · exact absurd hthread he
    · exact absurd hst ((quiet_did (ha i)).2 new)
  · exact ⟨(initializer_cons_quiet hq).trans hown, hw'.trans hw⟩

lemma frame_holder (h : TaskHandle) : Frame σ ω t (fun s : State T => holder h s.log = some t) := by
  intro s e he hi hl hh
  rcases he with he | ⟨c, a, rfl, ha⟩
  · exact hi.holder_push hl hh he
  · refine holder_cons.mpr (.inr ⟨?_, ?_, hh⟩)
    · rw [claims_did ha]
      simp
    · rw [finishes_did ha]
      simp

lemma callLog_push (hne : ∀ c, e ≠ .called t c) (log : List (LogEntry T)) : callLog t (e :: log) = callLog t log := by
  cases e with
  | called u c =>
    refine if_neg ?_
    rintro rfl
    exact hne c rfl
  | did u c a | returned u c reply => rfl

lemma Passes.ne_called (he : Passes t e) (c : Call) : e ≠ .called t c := by
  rintro rfl
  rcases he with he | ⟨c', a, h, -⟩
  · exact he rfl
  · cases h

lemma Passes.ne_returned (he : Passes t e) (c : Call) (reply : Reply) : e ≠ .returned t c reply := by
  rintro rfl
  rcases he with he | ⟨c', a, h, -⟩
  · exact he rfl
  · cases h

lemma Passes.not_claims (he : Passes t e) (h : TaskHandle) : ¬ (claims e = some h ∧ e.thread = t) := by
  rintro ⟨hc, ht⟩
  rcases he with he | ⟨c', a, rfl, ha⟩
  · exact he ht
  · rw [claims_did ha] at hc
    cases hc

variable (h)

lemma frame_fresh : Frame σ ω t (Fresh t h) := by
  intro s e he hi hl hf
  unfold Fresh
  rw [show (s.push e).log = e :: s.log from rfl, callLog_push he.ne_called]
  exact hf

lemma frame_begun : Frame σ ω t (fun s : State T => unfinished t h s.log = false) := by
  intro s e he hi hl hu
  rw [← not_eq_true] at hu ⊢
  intro hu'
  rcases unfinished_cons.mp hu' with hc | ⟨hu', -⟩
  · exact he.not_claims h hc
  · exact hu hu'

lemma frame_unsaved : Frame σ ω t (fun s : State T => unsaved t h s.log = false) := by
  intro s e he hi hl hu
  rw [← not_eq_true] at hu ⊢
  intro hu'
  rcases unsaved_cons.mp hu' with hc | ⟨hu', -⟩
  · exact he.not_claims h hc
  · exact hu hu'

lemma frame_saved : Frame σ ω t (fun s : State T => saved t h s.log = true) := by
  intro s e he hi hl hs
  exact saved_cons.mpr ⟨he.not_claims h, .inr hs⟩

lemma frame_outcome (o : FinishState) :
    Frame σ ω t (fun s : State T => holder h s.log = some t ∧ outcome h s.log = some o) := by
  rintro s e he hi hl ⟨hh, ho⟩
  refine ⟨frame_holder h s e he hi hl hh, outcome_cons.mpr ⟨hi.not_claims hl hh, .inr ⟨ho, ?_⟩⟩⟩
  rintro u o' rfl
  have hmay : unfinished u h s.log = true := (hl.call u _ rfl).2.1
  have hu := (hi.unfinished u h hmay).1
  rw [hh] at hu
  cases some.inj hu
  exact he.ne_called _ rfl

lemma frame_finishing (o : FinishState) : Frame σ ω t (Finishing σ t h o) := by
  intro s e he hi hl hf
  exact ⟨frame_holder h s e he hi hl hf.held, frame_begun h s e he hi hl hf.begun,
    (frame_outcome h o s e he hi hl ⟨hf.held, hf.outcome⟩).2, fun hσ => frame_saved h s e he hi hl (hf.saved hσ)⟩

variable {h}

/-- While a thread holds a task, nobody makes its word one that a wake has to change. -/
theorem frame_not_rousable (h : TaskHandle) (i : Fin 24) (hs : h.slot = i.val) : Frame σ ω t (fun s : State T =>
    holder h s.log = some t ∧ ¬ (word s.mem i).Rousable) := by
  rintro s e he hi hl ⟨hh, hr⟩
  refine ⟨frame_holder h s e he hi hl hh, ?_⟩
  intro hr'
  rcases hi.rousable_push hl hr' with hc | ⟨hold, -⟩
  · obtain ⟨k, hat, hact⟩ := hi.held h t hh
    obtain ⟨k', hk', hrun, -⟩ := hl.claims hc
    obtain ⟨rfl, -⟩ := taskAt_inj hk'
    have hki : k = i := Fin.ext (hat.1.trans hs)
    subst hki
    rcases hact with hact | hact <;> rw [hact] at hrun <;> cases hrun
  · exact hr hold

section

variable {Q : Fin 24 → StateWord → Prop} (hQ : ∀ j w, w.Active → Q j w → Q j (pack w.generation .blocked))
include hQ

lemma settling_push (hi : Inv σ ω s) (hl : Legal σ ω s e)
    (hclear : ∀ j, ¬ (clears e = some j ∧ e.thread = t)) (h : Settling ω t Q s) : Settling ω t Q (s.push e) := by
  intro hω j hd hr
  rcases debt_cons.mp hd with hc | ⟨hd, hset, -⟩
  · exact absurd hc (hclear j)
  rcases hi.rousable_push hl hr with hc | ⟨hold, -, -, ⟨hw, -⟩ | ⟨hact, hw, -⟩⟩
  · obtain ⟨k, old, new, hsw, -, hnew, hk⟩ := claims_spec hc
    obtain ⟨rfl, -⟩ := taskAt_inj hk
    rw [settles_of_swapped hsw, hnew] at hset
    cases hset
  · rw [hw]
    exact h hω j hd hold
  · rw [hw]
    exact hQ j _ hact (h hω j hd hold)

lemma stable_settling : Stable (outline σ ω) t (Settling ω t Q) :=
  fun _ _ he hi hl h => settling_push hQ hi hl (fun _ hc => he hc.2) h

end

lemma stable_settled : Stable (outline σ ω) t (Settled ω t) := stable_settling fun _ _ _ h => h

lemma stable_settling_generation (i : Fin 24) (g : ℕ) :
    Stable (outline σ ω) t (Settling ω t fun j w => j = i ∧ w.generation = g) :=
  stable_settling fun _ w _ h => ⟨h.1, (pack_word_generation w _).trans h.2⟩

lemma lastLoad_push (hne : ∀ c w, e ≠ .did t c (.load (.state i) w)) (log : List (LogEntry T)) :
    lastLoad t i (e :: log) = lastLoad t i log := by
  conv_lhs => unfold lastLoad
  split
  · rename_i heq
    cases heq
  · rename_i u c k w log' heq
    cases heq
    refine if_neg ?_
    rintro ⟨rfl, rfl⟩
    exact hne c w rfl
  · rename_i heq
    cases heq
    rfl

lemma stable_lastLoad (i : Fin 24) (w : StateWord) :
    Stable (outline σ ω) t (fun s : State T => lastLoad t i s.log = some w) := by
  intro s e he hi hl h
  refine (lastLoad_push ?_ s.log).trans h
  rintro c w' rfl
  exact he rfl

/-- Nobody but its holder owns the fields of a task. -/
theorem Owns.eq_holder (hi : Inv σ ω s) (hs : h.slot = i.val)
    (hh : holder h s.log = some t) {u : T} (hu : Owns s.log u i) : u = t := by
  obtain ⟨k, hat, hact⟩ := hi.held h t hh
  have hki : k = i := Fin.ext (hat.1.trans hs)
  subst hki
  rcases hu with ⟨b, hb⟩ | ⟨h', hs', hh'⟩
  · have hres : (word s.mem k).state = .initializing := by
      rw [hi.reserved k, hb]
      rfl
    rcases hact with hact | hact <;> rw [hact] at hres <;> cases hres
  · obtain ⟨k', hat', -⟩ := hi.held h' u hh'
    have hk' : k' = k := Fin.ext (hat'.1.trans hs')
    subst hk'
    have heq : h' = h := (TaskHandle.at_iff.mp hat').symm.trans (TaskHandle.at_iff.mp hat)
    rw [heq, hh] at hh'
    exact (some.inj hh').symm

/-- The context of the task was saved in this stint, or never. -/
theorem stable_context (hs : h.slot = i.val) : Stable (outline σ ω) t (fun s : State T =>
    holder h s.log = some t ∧ (σ → saved t h s.log = true ∨ s.mem (.contextSaved i) = false)) := by
  rintro s e he hi hl ⟨hh, hc⟩
  refine ⟨(frame_holder h).stable s e he hi hl hh, ?_⟩
  intro hσ
  rcases hc hσ with hsv | hclear
  · exact .inl ((frame_saved h).stable s e he hi hl hsv)
  refine .inr (eq_false_iff.mpr ?_)
  intro hset
  cases e with
  | called u c | returned u c reply => exact absurd (hclear.symm.trans hset) false_ne_true
  | did u c a =>
    by_cases ha : a.writes = some (.contextSaved i)
    · exact he (Owns.eq_holder hi hs hh (hl.context hσ u c a i rfl ha hset))
    · have hsame : (s.push (.did u c a)).mem (.contextSaved i) = s.mem (.contextSaved i) := Action.apply_of_not_writes ha
      exact absurd (hclear.symm.trans (hsame.symm.trans hset)) false_ne_true

lemma frame_unregistered (h : TaskHandle) : Frame σ ω t (fun s : State T =>
    holder h s.log = some t ∧ (ω → registration h s.log = none)) := by
  rintro s e he hi hl ⟨hh, hr⟩
  refine ⟨frame_holder h s e he hi hl hh, ?_⟩
  intro hω
  rw [eq_none_iff_forall_ne_some]
  intro r hr'
  rcases (registration_cons.mp hr').2.2 with hnew | ⟨hold, -⟩
  · obtain ⟨u, c, reply, rfl⟩ := registers_spec hnew
    have hu := ((hl.answer u c reply rfl).2.registers hω h r hnew).1
    rw [hh] at hu
    cases some.inj hu
    exact he.ne_returned c reply rfl
  · rw [hr hω] at hold
    cases hold

/-- What a thread that has registered knows until it returns. -/
theorem stable_awaits (hs : h.slot = i.val) (r : Registration) : Stable (outline σ ω) t (fun s : State T =>
      holder h s.log = some t ∧ (ω → (word s.mem i).Rousable → Covered s i r)) := by
  rintro s e he hi hl ⟨hh, hc⟩
  refine ⟨(frame_holder h).stable s e he hi hl hh, ?_⟩
  intro hω hr
  rcases hi.rousable_push hl hr with hclaim | ⟨hold, htask, hset, -⟩
  · have hbad := (frame_not_rousable h i hs).stable s e he hi hl
    obtain ⟨k, hk, hrun, -⟩ := hl.claims hclaim
    obtain ⟨rfl, -⟩ := taskAt_inj hk
    refine absurd hr (hbad ⟨hh, ?_⟩).2
    intro hr'
    rcases hr' with ⟨hr', -⟩ | hr' <;> rw [hrun] at hr' <;> cases hr'
  by_cases hclear : clears e = some i
  · exact .inr ⟨e.thread, debt_cons.mpr (.inl ⟨hclear, rfl⟩)⟩
  refine hi.covered_of_same hl (hc hω hold) ?_ hset ?_
  · cases e with
    | called u c | returned u c reply => exact id
    | did u c a =>
      by_cases hfield : waitField a = some i
      · by_cases hrouse : c.rouses = true
        · exact absurd ((if_pos hrouse).trans hfield) hclear
        · have hnone : clears (.did u c a : LogEntry T) = none := if_neg hrouse
          exact absurd (Owns.eq_holder hi hs hh (hl.field hω u c a i rfl hfield hnone).1) he
      · exact (registered_of_not_field hfield).mpr
  · rintro u c reply rfl
    rw [← not_eq_true]
    intro hd
    exact (hl.answer u c reply rfl).2.settled hω i hd hold

/-! ## Legal steps -/

/-- A step on registers that the invariant does not speak of. -/
def Plain (a : Action Reg Val) : Prop := ∀ i, a.writes ≠ some (.state i) ∧ a.writes ≠ some (.contextSaved i) ∧
  a.writes ≠ some (.waitObject i) ∧ a.writes ≠ some (.wakeDeadline i)

lemma Plain.waitField (h : Plain a) : waitField a = none := by
  unfold Scheduler.waitField
  split
  · rename_i i hw
    exact absurd hw (h i).2.2.1
  · rename_i i hw
    exact absurd hw (h i).2.2.2
  · rfl

lemma clears_of_not_rouses (hc : c.rouses = false) (a : Action Reg Val) : clears (.did t c a : LogEntry T) = none := by
  rw [clears, hc]
  rfl

/-- A step that writes no state word. -/
theorem legal_did (hin : inCall t s.log = some c) (ha : ∀ i, a.writes ≠ some (.state i))
    (hcontext : σ → ∀ i, a.writes = some (.contextSaved i) → (s.push (.did t c a)).mem (.contextSaved i) = true →
      Owns s.log t i)
    (hfield : ω → ∀ i, waitField a = some i → clears (.did t c a : LogEntry T) = none → Owns s.log t i ∧
      ∀ r, Expecting s i r → Registered s.mem i r → Registered (s.push (.did t c a)).mem i r)
    (hclear : ω → ∀ i, clears (.did t c a : LogEntry T) = some i → lastLoad t i s.log = some (word s.mem i)) :
    Legal σ ω s (.did t c a) where
  swap := fun i old new h => absurd h ((quiet_did (ha i)).1 old new)
  store := fun i new h => absurd h ((quiet_did (ha i)).2 new)
  call := nofun
  within := fun u c' a' h => by cases h; exact hin
  answer := nofun
  context := fun hσ u c' a' i h => by cases h; exact hcontext hσ i
  field := fun hω u c' a' i h => by cases h; exact hfield hω i
  clear := hclear

lemma legal_plain (hin : inCall t s.log = some c) (ha : Plain a) : Legal σ ω s (.did t c a) := by
  refine legal_did hin (fun i => (ha i).1) ?_ ?_ ?_
  · intro _ i hw
    exact absurd hw (ha i).2.1
  · intro _ i hw
    rw [ha.waitField] at hw
    cases hw
  · intro _ i hc
    obtain ⟨u, c', a', he, -, hw⟩ := clears_spec hc
    cases he
    rw [ha.waitField] at hw
    cases hw

lemma legal_swap {old new : StateWord} (hin : inCall t s.log = some c) (hw : word s.mem i = old)
    (hswap : Swap σ s.log t i old new) : Legal σ ω s (.did t c (.swap (.state i) old new)) where
  swap := fun k o n h => by cases h; exact ⟨hw, hswap⟩
  store := nofun
  call := nofun
  within := fun u c' a' h => by cases h; exact hin
  answer := nofun
  context := fun hσ u c' a' k h hw => by cases h; cases hw
  field := fun hω u c' a' k h hw => by cases h; cases hw
  clear := fun hω k h => by
    obtain ⟨u, c', a', he, -, hw⟩ := clears_spec h
    cases he
    cases hw

lemma legal_publish {new : StateWord} (hin : inCall t s.log = some c)
    (hpub : Publish s.log t i (word s.mem i) new) : Legal σ ω s (.did t c (.store (.state i) new)) where
  swap := nofun
  store := fun k n h => by cases h; exact hpub
  call := nofun
  within := fun u c' a' h => by cases h; exact hin
  answer := nofun
  context := fun hσ u c' a' k h hw => by cases h; cases hw
  field := fun hω u c' a' k h hw => by cases h; cases hw
  clear := fun hω k h => by
    obtain ⟨u, c', a', he, -, hw⟩ := clears_spec h
    cases he
    cases hw

lemma legal_called (hin : inCall t s.log = none) (hmay : MayCall s t c ∧ (σ → SavesFirst s t c)) :
    Legal σ ω s (.called t c) where
  swap := fun k o n h => by cases h
  store := fun k n h => by cases h
  call := fun u c' h => by cases h; exact ⟨hin, hmay⟩
  within := fun u c' a' h => by cases h
  answer := fun u c' reply h => by cases h
  context := fun hσ u c' a' k h => by cases h
  field := fun hω u c' a' k h => by cases h
  clear := fun hω k h => by cases h

section

variable (hin : inCall t s.log = some c)
include hin

lemma legal_returned {reply : Reply} (hans : Answers ω s t c reply) : Legal σ ω s (.returned t c reply) where
  swap := fun k o n h => by cases h
  store := fun k n h => by cases h
  call := fun u c' h => by cases h
  within := fun u c' a' h => by cases h
  answer := fun u c' reply' h => by cases h; exact ⟨hin, hans⟩
  context := fun hσ u c' a' k h => by cases h
  field := fun hω u c' a' k h => by cases h
  clear := fun hω k h => by cases h

/-- A store to the fields of a slot by the thread that has reserved it. -/
theorem legal_reserved {r : Reg} {v : Val r} {k : Bool} {w : StateWord} (hi : Inv σ ω s) (hc : c.rouses = false)
    (hown : Owned t i k w s) (hr : ∀ j, r ≠ .state j)
    (hslot : ∀ j, r = .contextSaved j ∨ r = .waitObject j ∨ r = .wakeDeadline j → j = i) :
    Legal σ ω s (.did t c (.store r v)) := by
  have howns : Owns s.log t i := .inl ⟨k, hown.1⟩
  refine legal_did hin ?_ ?_ ?_ ?_
  · intro j hw
    exact hr j (some.inj hw)
  · intro _ j hw _
    rw [hslot j (.inl (some.inj hw))]
    exact howns
  · intro _ j hw _
    have hj : j = i := by
      unfold waitField at hw
      split at hw
      · rename_i k' heq
        cases hw
        exact hslot j (.inr (.inl (some.inj heq)))
      · rename_i k' heq
        cases hw
        exact hslot j (.inr (.inr (some.inj heq)))
      · cases hw
    subst hj
    refine ⟨howns, ?_⟩
    intro reg hx
    have hres : (word s.mem j).state = .initializing := by
      rw [hi.reserved j, hown.1]
      rfl
    rcases hx.rousable with ⟨h, -⟩ | h <;> rw [hres] at h <;> cases h
  · intro _ j hcl
    rw [clears_of_not_rouses hc] at hcl
    cases hcl

/-- A store to the fields of a wait by an operation that wakes nobody. -/
theorem legal_wait_store {r : Reg} {v : Val r} (hr : r = .waitObject i ∨ r = .wakeDeadline i) (hc : c.rouses = false)
    (h : ω → Owns s.log t i ∧ ∀ reg, Expecting s i reg → Registered s.mem i reg →
      Registered (s.push (.did t c (.store r v))).mem i reg) : Legal σ ω s (.did t c (.store r v)) := by
  refine legal_did hin ?_ ?_ ?_ ?_
  · intro j hw
    rcases hr with rfl | rfl <;> cases hw
  · intro _ j hw
    rcases hr with rfl | rfl <;> cases hw
  · intro hω j hw _
    have hj : j = i := by
      rcases hr with rfl | rfl <;> exact (some.inj hw).symm
    subst hj
    exact h hω
  · intro _ j hcl
    rw [clears_of_not_rouses hc] at hcl
    cases hcl

/-- A step by which an operation clears the fields of a wait. -/
theorem legal_clear (hc : c.rouses = true)
    (hw : a.writes = some (.waitObject i) ∨ a.writes = some (.wakeDeadline i)) (hmay : ω → ClearsCurrent s t c a) :
    Legal σ ω s (.did t c a) := by
  refine legal_did hin ?_ ?_ ?_ ?_
  · intro j hj
    rcases hw with hw | hw <;> rw [hw] at hj <;> cases hj
  · intro _ j hj
    rcases hw with hw | hw <;> rw [hw] at hj <;> cases hj
  · intro _ j hj hcl
    rw [clears, if_pos hc, hj] at hcl
    cases hcl
  · intro hω j hcl
    exact hmay hω j hcl

end

end LogOS.Kernel.Scheduler
