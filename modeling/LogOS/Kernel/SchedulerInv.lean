import LogOS.Kernel.SchedulerLog

/-!
# The protocol of the state words

What a thread may write to a slot follows from what the log says it owns: a slot that it reserved, or a task that it
claimed.  `Legal` says this of every entry, `Inv` ties the log to the words, and every legal entry keeps the invariant.
The flag `σ` stands for the discipline of saving contexts, and `ω` for that of clearing the fields of waits, so that what
does not need them is proved without.
-/

set_option linter.unusedSectionVars false

namespace LogOS.Kernel.Scheduler

open Lib.Interleaving Option Scheduler

variable {T : Type} [DecidableEq T]

/-! ## Words -/

namespace StateWord

/-- The task of the word runs. -/
def Active (w : StateWord) : Prop := w.state = .running ∨ w.state = .stopping

/-- A wake has to change the word. -/
def Rousable (w : StateWord) : Prop := (w.state = .running ∧ w.wakePending = false) ∨ w.state = .blocked

end StateWord

@[simp] lemma pack_state (generation : ℕ) (state : TaskPhase) : (pack generation state).state = state := rfl

@[simp] lemma pack_wakePending (generation : ℕ) (state : TaskPhase) : (pack generation state).wakePending = false := rfl

lemma pack_generation {generation : ℕ} (h : generation < 2 ^ 56) (state : TaskPhase) :
    (pack generation state).generation = generation := Nat.mod_eq_of_lt h

variable (w : StateWord)

@[simp] lemma pack_word_generation (state : TaskPhase) :
    (pack w.generation state).generation = w.generation := pack_generation w.generation_lt state

@[simp] lemma withWake_state : w.withWake.state = w.state := rfl

variable {i : Fin 24} {w : StateWord}

lemma taskAt_inj {k : Fin 24} {w' : StateWord} (h : taskAt i w = taskAt k w') : i = k ∧ w.generation = w'.generation := by
  injection h with h1 h2
  exact ⟨Fin.ext h1, h2⟩

lemma taskAt_congr (i : Fin 24) {w' : StateWord} (h : w.generation = w'.generation) : taskAt i w = taskAt i w' := by
  rcases w with ⟨g, _, _, _⟩
  cases h
  rfl

/-- The handle of the task in slot `i`. -/
def TaskHandle.At (h : TaskHandle) (i : Fin 24) (w : StateWord) : Prop := i.val = h.slot ∧ w.generation = h.generation

variable {h : TaskHandle}

lemma TaskHandle.at_iff : h.At i w ↔ taskAt i w = h := by
  rcases h with ⟨slot, generation, hlt⟩
  constructor
  · rintro ⟨rfl, rfl⟩
    rfl
  · intro h
    injection h with h1 h2
    exact ⟨h1, h2⟩

/-! ## What the log says of the slots -/

/-- The thread that has reserved the slot, and whether it did so to reclaim it. -/
def initializer (i : Fin 24) : List (LogEntry T) → Option (T × Bool)
  | [] => none
  | e :: log =>
    match swapped e with
    | some (k, old, new) =>
      if k = i ∧ new.state = .initializing then some (e.thread, decide (old.state = .completed)) else initializer i log
    | none =>
      match stored e with
      | some (k, _) => if k = i then none else initializer i log
      | none => initializer i log

/-- The thread owns the fields of the slot: it has reserved it, or it holds its task. -/
def Owns (log : List (LogEntry T)) (t : T) (i : Fin 24) : Prop :=
  (∃ k, initializer i log = some (t, k)) ∨ ∃ h : TaskHandle, h.slot = i.val ∧ holder h log = some t

/-- A step that writes the state word of the slot, other than to block the task. -/
def settles (i : Fin 24) (e : LogEntry T) : Bool :=
  match swapped e with
  | some (k, _, new) => decide (k = i ∧ new.state ≠ .blocked)
  | none =>
    match stored e with
    | some (k, _) => decide (k = i)
    | none => false

/-- The thread has cleared fields of the slot and not yet changed its word, nor has anybody else. -/
def debt (t : T) (i : Fin 24) : List (LogEntry T) → Bool
  | [] => false
  | e :: log =>
    if clears e = some i ∧ e.thread = t then true
    else if settles i e = true then false
    else
      match e with
      | .returned u _ _ => if u = t then false else debt t i log
      | _ => debt t i log

/-- A wake of the task took effect since it was claimed. -/
def awake (h : TaskHandle) : List (LogEntry T) → Bool
  | [] => false
  | e :: log =>
    if claims e = some h then false
    else if wakes log e = some h then true
    else awake h log

/-- The task has been stopped: its word says so, or belongs to a later task. -/
def Retired (s : State T) (i : Fin 24) (generation : ℕ) : Prop :=
  generation < (word s.mem i).generation ∨
    ((word s.mem i).generation = generation ∧
      ((word s.mem i).state = .stopping ∨ (word s.mem i).state = .completed ∨ ∃ t, initializer i s.log = some (t, true)))

/-- The task of the slot has registered, and was not finished otherwise than to wait. -/
structure Expecting (s : State T) (i : Fin 24) (r : Registration) : Prop where
  rousable : (word s.mem i).Rousable
  registration : registration (taskAt i (word s.mem i)) s.log = some r
  outcome : ∀ o, outcome (taskAt i (word s.mem i)) s.log = some o → Waits r o

/-- The registration stands in the slot, or a thread has taken it out and owes the task a wake. -/
def Covered (s : State T) (i : Fin 24) (r : Registration) : Prop := Registered s.mem i r ∨ ∃ t, debt t i s.log = true

/-! ## Legal entries -/

/-- The compare-exchanges of a state word. -/
inductive Swap (σ : Prop) (log : List (LogEntry T)) (t : T) (i : Fin 24) (old : StateWord) : StateWord → Prop where
  | reserve (h : old.state = .vacant) : Swap σ log t i old (pack old.generation .initializing)
  | claim (h : old.state = .runnable) : Swap σ log t i old (pack old.generation .running)
  | wakeRunning (h : old.state = .running) : Swap σ log t i old old.withWake
  | wakeBlocked (h : old.state = .blocked) : Swap σ log t i old (pack old.generation .runnable)
  | stopRunning (h : old.state = .running) : Swap σ log t i old (pack old.generation .stopping)
  | stopWaiting (h : old.state = .runnable ∨ old.state = .blocked) : Swap σ log t i old (pack old.generation .completed)
  | finish (next : TaskPhase) (h : old.Active) (hnext : next = .runnable ∨ next = .completed ∨ next = .blocked)
      (hblocked : next = .blocked → old.Rousable) (hstop : old.state = .stopping → next = .completed)
      (hheld : holder (taskAt i old) log = some t) (hbegun : unfinished t (taskAt i old) log = false)
      (hsaved : σ → saved t (taskAt i old) log = true) :
      Swap σ log t i old (pack old.generation next)
  | reclaim (h : old.state = .completed) : Swap σ log t i old (pack old.generation .initializing)

/-- The stores to a state word. -/
inductive Publish (log : List (LogEntry T)) (t : T) (i : Fin 24) (old : StateWord) : StateWord → Prop where
  | spawned (h : initializer i log = some (t, false)) : Publish log t i old (pack old.generation .runnable)
  | vacated (h : initializer i log = some (t, true)) (hlt : old.generation + 1 < 2 ^ 56) :
      Publish log t i old (pack (old.generation + 1) .vacant)

/-- What a thread may answer. -/
structure Answers (ω : Prop) (s : State T) (t : T) (c : Call) (reply : Reply) : Prop where
  fresh : ∀ h, c.handle? = some h → reply.succeeded = true → ¬ reclaimed h (callLog t s.log)
  stop : ∀ h, c = .requestStop h → reply = .flag true → ∃ i : Fin 24, i.val = h.slot ∧ Retired s i h.generation
  reclaim : ∀ h, c = .reclaimCompleted h → reply = .flag true →
    ∃ i : Fin 24, i.val = h.slot ∧ h.generation < (word s.mem i).generation
  save : ∀ h rsp, c = .saveContext h rsp → reply = .flag true → unsaved t h s.log = false
  registers : ω → ∀ h r, registers (.returned t c reply : LogEntry T) = some (h, r) → holder h s.log = some t ∧
    ∀ i, taskAt i (word s.mem i) = h → (word s.mem i).Rousable → Covered s i r
  settled : ω → ∀ i, debt t i s.log = true → ¬ (word s.mem i).Rousable

/-- The entries that the log may be continued with. -/
structure Legal (σ ω : Prop) (s : State T) (e : LogEntry T) : Prop where
  swap : ∀ i old new, swapped e = some (i, old, new) → word s.mem i = old ∧ Swap σ s.log e.thread i old new
  store : ∀ i new, stored e = some (i, new) → Publish s.log e.thread i (word s.mem i) new
  call : ∀ t c, e = .called t c → inCall t s.log = none ∧ MayCall s t c ∧ (σ → SavesFirst s t c)
  within : ∀ t c a, e = .did t c a → inCall t s.log = some c
  answer : ∀ t c reply, e = .returned t c reply → inCall t s.log = some c ∧ Answers ω s t c reply
  context : σ → ∀ t c a i, e = .did t c a → a.writes = some (.contextSaved i) →
    (s.push e).mem (.contextSaved i) = true → Owns s.log t i
  field : ω → ∀ t c a i, e = .did t c a → waitField a = some i → clears e = none →
    Owns s.log t i ∧ ∀ r, Expecting s i r → Registered s.mem i r → Registered (s.push e).mem i r
  clear : ω → ∀ i, clears e = some i → lastLoad e.thread i s.log = some (word s.mem i)

/-! ## The invariant -/

/-- What was said of each entry when it was made. -/
def Chronicle (σ ω : Prop) : List (LogEntry T) → Prop
  | [] => True
  | e :: log => Chronicle σ ω log ∧
      (∀ h, claims e = some h → holder h log = none ∧ ¬ stopped h log) ∧
      (∀ h, finishes e = some h → holder h log = some e.thread ∧ (σ → saved e.thread h log = true)) ∧
      (∀ t c reply h, e = .returned t c reply → c.handle? = some h → reply.succeeded = true →
        ¬ reclaimed h (callLog t log)) ∧
      (ω → ∀ i w, clears e = some i → lastLoad e.thread i log = some w → ¬ reclaimed (taskAt i w) log)

structure Inv (σ ω : Prop) (s : State T) : Prop where
  pending : ∀ i, (word s.mem i).wakePending = true → (word s.mem i).state = .running
  reserved : ∀ i, (word s.mem i).state = .initializing ↔ (initializer i s.log).isSome = true
  held : ∀ h t, holder h s.log = some t → ∃ i, h.At i (word s.mem i) ∧ (word s.mem i).Active
  active : ∀ i, (word s.mem i).Active → (holder (taskAt i (word s.mem i)) s.log).isSome = true
  unfinished : ∀ t h, unfinished t h s.log = true → holder h s.log = some t ∧ outcome h s.log = none
  stopped : ∀ h, stopped h s.log → ∃ i : Fin 24, i.val = h.slot ∧ Retired s i h.generation
  reclaimed : ∀ h, reclaimed h s.log → ∃ i : Fin 24, i.val = h.slot ∧ h.generation < (word s.mem i).generation
  unsaved : σ → ∀ t h, unsaved t h s.log = true → holder h s.log = some t ∧ saved t h s.log = false
  covered : ω → ∀ i r, Expecting s i r → Covered s i r
  awake : ω → ∀ i, awake (taskAt i (word s.mem i)) s.log = true → ¬ (word s.mem i).Rousable
  debt : ∀ t i, debt t i s.log = true → ∃ c, inCall t s.log = some c ∧ c.rouses = true
  chronicle : Chronicle σ ω s.log

/-! ## What a legal entry does to a word -/

variable {σ ω : Prop} {s : State T} {e : LogEntry T} {t : T} {log : List (LogEntry T)}

/-- The entry writes no state word of the slot. -/
def Quiet (i : Fin 24) (e : LogEntry T) : Prop :=
  (∀ old new, swapped e ≠ some (i, old, new)) ∧ ∀ new, stored e ≠ some (i, new)

section Entries

variable {old new : StateWord}

lemma word_push_swapped (h : swapped e = some (i, old, new)) : word (s.push e).mem i = new := by
  unfold swapped at h
  split at h <;> cases h <;> exact Function.update_self _ _ _

lemma word_push_stored {new : StateWord} (h : stored e = some (i, new)) : word (s.push e).mem i = new := by
  unfold stored at h
  split at h <;> cases h
  exact Function.update_self _ _ _

lemma word_push_of_quiet (h : Quiet i e) : word (s.push e).mem i = word s.mem i := by
  cases e with
  | called t c | returned t c reply => rfl
  | did t c a =>
    refine Action.apply_of_not_writes ?_
    intro hw
    cases a with
    | load r v | miss r old new => cases hw
    | store r v =>
      cases hw
      exact h.2 v rfl
    | swap r old new =>
      cases hw
      exact h.1 old new rfl
    | fetch r old new =>
      cases hw
      exact h.1 old new rfl

/-- **One step of a word.** -/
theorem Legal.word_cases (hl : Legal σ ω s e) (i : Fin 24) :
    (∃ new, swapped e = some (i, word s.mem i, new) ∧ word (s.push e).mem i = new ∧
      Swap σ s.log e.thread i (word s.mem i) new) ∨
    (∃ new, stored e = some (i, new) ∧ word (s.push e).mem i = new ∧
      Publish s.log e.thread i (word s.mem i) new) ∨
    (word (s.push e).mem i = word s.mem i ∧ Quiet i e) := by
  by_cases hsw : ∃ old new, swapped e = some (i, old, new)
  · obtain ⟨old, new, hsw⟩ := hsw
    obtain ⟨rfl, hswap⟩ := hl.swap i old new hsw
    exact .inl ⟨new, hsw, word_push_swapped hsw, hswap⟩
  by_cases hst : ∃ new, stored e = some (i, new)
  · obtain ⟨new, hst⟩ := hst
    exact .inr (.inl ⟨new, hst, word_push_stored hst, hl.store i new hst⟩)
  have hquiet : Quiet i e := by
    constructor
    · intro old new h
      exact hsw ⟨old, new, h⟩
    · intro new h
      exact hst ⟨new, h⟩
  exact .inr (.inr ⟨word_push_of_quiet hquiet, hquiet⟩)

lemma Swap.generation (h : Swap σ log t i old new) : new.generation = old.generation := by
  cases h <;> first | exact pack_word_generation old _ | rfl

lemma Swap.pending (h : Swap σ log t i old new) (hp : new.wakePending = true) : new.state = .running := by
  cases h with
  | wakeRunning h => exact h
  | _ => cases hp

/-- No compare-exchange leaves a reserved word. -/
theorem Swap.ne_initializing (h : Swap σ log t i old new) : old.state ≠ .initializing := by
  intro hold
  cases h with
  | stopWaiting h | finish next h => rcases h with h | h <;> rw [h] at hold <;> cases hold
  | _ h => rw [h] at hold; cases hold

lemma Publish.generation_le (h : Publish log t i old new) : old.generation ≤ new.generation := by
  cases h with
  | spawned h => exact (pack_word_generation old _).ge
  | vacated h hlt =>
    rw [pack_generation hlt]
    exact Nat.le_succ _

lemma Legal.generation_le (hl : Legal σ ω s e) (i : Fin 24) :
    (word s.mem i).generation ≤ (word (s.push e).mem i).generation := by
  rcases hl.word_cases i with ⟨new, -, hw, h⟩ | ⟨new, -, hw, h⟩ | ⟨hw, -⟩
  · rw [hw, h.generation]
  · rw [hw]
    exact h.generation_le
  · rw [hw]

/-! ## Claims and finishes -/

lemma claims_spec (hc : claims e = some h) : ∃ i old new, swapped e = some (i, old, new) ∧
    old.state = .runnable ∧ new.state = .running ∧ h = taskAt i old := by
  unfold claims at hc
  split at hc
  · rename_i i old new hsw
    split at hc
    · rename_i hst
      cases hc
      exact ⟨i, old, new, hsw, hst.1, hst.2, rfl⟩
    · cases hc
  · cases hc

lemma finishes_spec (hf : finishes e = some h) : ∃ i old new, swapped e = some (i, old, new) ∧
    old.Active ∧ ¬ new.Active ∧ h = taskAt i old := by
  unfold finishes at hf
  split at hf
  · rename_i i old new hsw
    split at hf
    · rename_i hst
      cases hf
      exact ⟨i, old, new, hsw, hst.1, fun ha => ha.elim hst.2.1 hst.2.2, rfl⟩
    · cases hf
  · cases hf

lemma claims_of_swapped (h : swapped e = some (i, old, new)) :
    claims e = if old.state = .runnable ∧ new.state = .running then some (taskAt i old) else none := by
  unfold claims
  rw [h]

lemma finishes_of_swapped (h : swapped e = some (i, old, new)) :
    finishes e = if (old.state = .running ∨ old.state = .stopping) ∧ new.state ≠ .running ∧ new.state ≠ .stopping then
      some (taskAt i old) else none := by
  unfold finishes
  rw [h]

lemma Quiet.not_claims (hq : Quiet i e) (hs : i.val = h.slot) : claims e ≠ some h := by
  intro hc
  obtain ⟨k, old, new, hsw, -, -, rfl⟩ := claims_spec hc
  cases Fin.ext hs
  exact hq.1 _ _ hsw

lemma Quiet.not_finishes (hq : Quiet i e) (hs : i.val = h.slot) : finishes e ≠ some h := by
  intro hf
  obtain ⟨k, old, new, hsw, -, -, rfl⟩ := finishes_spec hf
  cases Fin.ext hs
  exact hq.1 _ _ hsw

/-- What a claim means for the slot. -/
theorem Legal.claims (hl : Legal σ ω s e) (hc : claims e = some h) : ∃ i, h = taskAt i (word s.mem i) ∧
    (word s.mem i).state = .runnable ∧ word (s.push e).mem i = pack (word s.mem i).generation .running := by
  obtain ⟨i, old, new, hsw, hold, hnew, rfl⟩ := claims_spec hc
  obtain ⟨rfl, hswap⟩ := hl.swap i old new hsw
  refine ⟨i, rfl, hold, ?_⟩
  rw [word_push_swapped hsw]
  cases hswap with
  | claim h => rfl
  | wakeRunning h => rw [h] at hold; cases hold
  | finish next h hnext =>
    rcases h with h | h <;> rw [h] at hold <;> cases hold
  | _ h => cases hnew

/-- What a finish means for the slot. -/
theorem Legal.finishes (hl : Legal σ ω s e) (hf : finishes e = some h) :
    ∃ i, h = taskAt i (word s.mem i) ∧ (word s.mem i).Active ∧ ¬ (word (s.push e).mem i).Active ∧
      holder h s.log = some e.thread ∧ unfinished e.thread h s.log = false ∧ (σ → saved e.thread h s.log = true) := by
  obtain ⟨i, old, new, hsw, hold, hnew, rfl⟩ := finishes_spec hf
  obtain ⟨rfl, hswap⟩ := hl.swap i old new hsw
  refine ⟨i, rfl, hold, ?_, ?_⟩
  · rw [word_push_swapped hsw]
    exact hnew
  cases hswap with
  | finish next h hnext hblocked hstop hheld hbegun hsaved => exact ⟨hheld, hbegun, hsaved⟩
  | claim h => exact absurd (.inl rfl) hnew
  | wakeRunning h => exact absurd (.inl h) hnew
  | stopRunning h => exact absurd (.inr rfl) hnew
  | reserve h | wakeBlocked h => rcases hold with hold | hold <;> rw [h] at hold <;> cases hold
  | stopWaiting h => rcases h with h | h <;> rcases hold with hold | hold <;> rw [h] at hold <;> cases hold
  | reclaim h => rcases hold with hold | hold <;> rw [h] at hold <;> cases hold

end Entries

/-! ## The log functions on one more entry -/

variable {r : Registration}

section Cons

variable {old new : StateWord}

lemma holder_cons : holder h (e :: log) = some t ↔ (claims e = some h ∧ e.thread = t) ∨
    (claims e ≠ some h ∧ finishes e ≠ some h ∧ holder h log = some t) := by
  rw [holder]
  split <;> rename_i hc
  · simp [hc]
  · split <;> rename_i hf <;> simp [hc, hf]

lemma unfinished_cons : unfinished t h (e :: log) = true ↔ (claims e = some h ∧ e.thread = t) ∨
    (unfinished t h log = true ∧ ∀ o, e ≠ .called t (.finish h o)) := by
  conv_lhs => unfold unfinished
  split <;> rename_i hc
  · simp [hc]
  · split
    · split <;> rename_i he
      · obtain ⟨rfl, rfl⟩ := he
        simp [hc]
      · simp only [hc, false_or]
        refine (and_iff_left ?_).symm
        intro o ho
        cases ho
        exact he ⟨rfl, rfl⟩
    · rename_i hne
      simp only [hc, false_or]
      exact (and_iff_left fun o => hne t h o).symm

lemma unsaved_cons : unsaved t h (e :: log) = true ↔ (claims e = some h ∧ e.thread = t) ∨
    (unsaved t h log = true ∧ ∀ rsp, e ≠ .called t (.saveContext h rsp)) := by
  conv_lhs => unfold unsaved
  split <;> rename_i hc
  · simp [hc]
  · split
    · split <;> rename_i he
      · obtain ⟨rfl, rfl⟩ := he
        simp [hc]
      · simp only [hc, false_or]
        refine (and_iff_left ?_).symm
        intro o ho
        cases ho
        exact he ⟨rfl, rfl⟩
    · rename_i hne
      simp only [hc, false_or]
      exact (and_iff_left fun o => hne t h o).symm

lemma saved_cons : saved t h (e :: log) = true ↔ ¬ (claims e = some h ∧ e.thread = t) ∧
    ((∃ rsp, e = .returned t (.saveContext h rsp) (.flag true)) ∨ saved t h log = true) := by
  conv_lhs => unfold saved
  split <;> rename_i hc
  · simp [hc]
  · split
    · split <;> rename_i he
      · obtain ⟨rfl, rfl⟩ := he
        simp [hc]
      · simp only [hc, not_false_eq_true, true_and]
        refine (or_iff_right ?_).symm
        rintro ⟨rsp, ho⟩
        cases ho
        exact he ⟨rfl, rfl⟩
    · rename_i hne
      simp only [hc, not_false_eq_true, true_and]
      refine (or_iff_right ?_).symm
      rintro ⟨rsp, ho⟩
      exact hne t h rsp ho

lemma outcome_cons {o : FinishState} : outcome h (e :: log) = some o ↔ claims e ≠ some h ∧
    ((∃ u, e = .called u (.finish h o)) ∨ (outcome h log = some o ∧ ∀ u o', e ≠ .called u (.finish h o'))) := by
  conv_lhs => unfold outcome
  split <;> rename_i hc
  · simp [hc]
  · split
    · split <;> rename_i he
      · subst he
        simp [hc]
      · simp only [ne_eq, hc, not_false_eq_true, true_and]
        constructor
        · intro ho
          refine .inr ⟨ho, ?_⟩
          intro u o' heq
          cases heq
          exact he rfl
        · rintro (⟨u, heq⟩ | ⟨ho, -⟩)
          · cases heq
            exact absurd rfl he
          · exact ho
    · rename_i hne
      simp only [ne_eq, hc, not_false_eq_true, true_and]
      constructor
      · intro ho
        exact .inr ⟨ho, fun u o' => hne u h o'⟩
      · rintro (⟨u, heq⟩ | ⟨ho, -⟩)
        · exact absurd heq (hne u h o)
        · exact ho

lemma registration_cons : registration h (e :: log) = some r ↔ claims e ≠ some h ∧
    registering e ≠ some h ∧ (registers e = some (h, r) ∨
      (registration h log = some r ∧ ∀ r', registers e ≠ some (h, r'))) := by
  rw [registration]
  split <;> rename_i hc
  · rcases hc with hc | hc <;> simp [hc]
  · rw [not_or] at hc
    split
    · rename_i k r' hr
      split <;> rename_i hk
      · subst hk
        simp [hc, hr]
      · simp [hc, hr, hk]
    · rename_i hr
      simp [hc, hr]

lemma debt_cons : debt t i (e :: log) = true ↔ (clears e = some i ∧ e.thread = t) ∨
    (debt t i log = true ∧ settles i e = false ∧ ∀ c reply, e ≠ .returned t c reply) := by
  conv_lhs => unfold debt
  split <;> rename_i hc
  · simp [hc]
  · split <;> rename_i hs
    · simp [hc, hs]
    · split
      · split <;> rename_i hu
        · subst hu
          simp [hc]
        · simp only [hc, false_or, eq_false_of_ne_true hs, true_and]
          refine (and_iff_left ?_).symm
          intro c reply heq
          cases heq
          exact hu rfl
      · rename_i hne
        simp only [hc, false_or, eq_false_of_ne_true hs, true_and]
        exact (and_iff_left fun c reply => hne t c reply).symm

lemma awake_cons : awake h (e :: log) = true ↔ claims e ≠ some h ∧ (wakes log e = some h ∨ awake h log = true) := by
  rw [awake]
  split <;> rename_i hc
  · simp [hc]
  · split <;> rename_i hw <;> simp [hc, hw]

lemma initializer_cons_swapped (hsw : swapped e = some (i, old, new)) :
    initializer i (e :: log) = if new.state = .initializing then some (e.thread, decide (old.state = .completed))
      else initializer i log := by
  rw [initializer, hsw]
  simp

lemma initializer_cons_stored {new : StateWord} (hst : stored e = some (i, new)) : initializer i (e :: log) = none := by
  have hsw : swapped e = none := by
    unfold stored at hst
    split at hst <;> cases hst
    rfl
  rw [initializer, hsw, hst]
  simp

lemma initializer_cons_quiet (hq : Quiet i e) : initializer i (e :: log) = initializer i log := by
  rw [initializer]
  split
  · rename_i k old new hsw
    split <;> rename_i hk
    · obtain ⟨rfl, -⟩ := hk
      exact absurd hsw (hq.1 _ _)
    · rfl
  · split
    · rename_i k new hst
      split <;> rename_i hk
      · subst hk
        exact absurd hst (hq.2 _)
      · rfl
    · rfl

lemma settles_of_quiet (hq : Quiet i e) : settles i e = false := by
  unfold settles
  split
  · rename_i k old new hsw
    refine decide_eq_false ?_
    rintro ⟨rfl, -⟩
    exact hq.1 _ _ hsw
  · split
    · rename_i k new hst
      refine decide_eq_false ?_
      rintro rfl
      exact hq.2 _ hst
    · rfl

lemma settles_of_swapped (hsw : swapped e = some (i, old, new)) : settles i e = decide (new.state ≠ .blocked) := by
  unfold settles
  rw [hsw]
  simp

lemma clears_spec (hc : clears e = some i) : ∃ u c a, e = .did u c a ∧ c.rouses = true ∧ waitField a = some i := by
  cases e with
  | called u c | returned u c reply => cases hc
  | did u c a =>
    rw [clears] at hc
    split at hc
    · exact ⟨u, c, a, rfl, by assumption, hc⟩
    · cases hc

lemma wakes_spec (hw : wakes log e = some h) :
    (∃ k old new, swapped e = some (k, old, new) ∧ h = taskAt k old ∧
      ((old.state = .running ∧ new = old.withWake) ∨ (old.state = .blocked ∧ new.state = .runnable))) ∨
    ∃ k w, swapped e = none ∧ clears e = some k ∧ lastLoad e.thread k log = some w ∧ h = taskAt k w ∧
      (w.state = .runnable ∨ w.wakePending = true) := by
  unfold wakes at hw
  split at hw
  · rename_i k old new
    unfold wakes.wakeSwap at hw
    split at hw
    · cases hw
      exact .inl ⟨k, old, new, rfl, rfl, by assumption⟩
    · cases hw
  · rename_i u c k v
    split at hw
    · rename_i w hr hload
      split at hw
      · cases hw
        exact .inr ⟨k, w, rfl, if_pos hr, hload, rfl, by assumption⟩
      · cases hw
    · cases hw
  · cases hw

lemma registers_spec (hr : registers e = some (h, r)) : ∃ u c reply, e = .returned u c reply := by
  unfold registers at hr
  split at hr
  · exact ⟨_, _, _, rfl⟩
  · exact ⟨_, _, _, rfl⟩
  · cases hr

/-- A step on other registers leaves the fields of a wait as they were. -/
theorem registered_of_not_field {u : T} {c : Call} {a : Action Reg Val} (ha : waitField a ≠ some i)
    : Registered (s.push (.did u c a)).mem i r ↔ Registered s.mem i r := by
  have hkeep : ∀ r, (a.writes = some r → waitField a = some i) → (s.push (.did u c a)).mem r = s.mem r :=
    fun r hr => Action.apply_of_not_writes fun hw => ha (hr hw)
  unfold Registered
  rw [hkeep _ fun hw => by rw [waitField, hw], hkeep _ fun hw => by rw [waitField, hw]]

lemma quiet_returned (u : T) (c : Call) (reply : Reply) : Quiet i (.returned u c reply : LogEntry T) :=
  ⟨fun _ _ hsw => (by cases hsw), fun _ hst => (by cases hst)⟩

end Cons

/-! ## Legal entries keep the invariant -/

namespace Inv

lemma initializing (hi : Inv σ ω s) {x : T × Bool} (h : initializer i s.log = some x) :
    (word s.mem i).state = .initializing := by
  rw [hi.reserved i, h]
  rfl

variable (hi : Inv σ ω s) (hl : Legal σ ω s e)

include hi hl

/-- A task that is held is in a slot that nobody can claim. -/
theorem not_claims (hh : holder h s.log = some t) : claims e ≠ some h := by
  intro hc
  obtain ⟨i, hat, hact⟩ := hi.held h t hh
  obtain ⟨k, rfl, hrun, -⟩ := hl.claims hc
  cases Fin.ext hat.1
  rcases hact with hact | hact <;> rw [hact] at hrun <;> cases hrun

/-- Only the holder finishes a task. -/
theorem not_finishes (hh : holder h s.log = some t) (ht : e.thread ≠ t) : finishes e ≠ some h := by
  intro hf
  obtain ⟨i, -, -, -, hheld, -⟩ := hl.finishes hf
  rw [hh] at hheld
  exact ht (some.inj hheld).symm

lemma holder_push (hh : holder h s.log = some t) (ht : e.thread ≠ t) : holder h (e :: s.log) = some t :=
  holder_cons.mpr (.inr ⟨hi.not_claims hl hh, hi.not_finishes hl hh ht, hh⟩)

lemma pending_push (i : Fin 24) (hp : (word (s.push e).mem i).wakePending = true) :
    (word (s.push e).mem i).state = .running := by
  rcases hl.word_cases i with ⟨new, -, hw, h⟩ | ⟨new, -, hw, h⟩ | ⟨hw, -⟩
  · rw [hw] at hp ⊢
    exact h.pending hp
  · rw [hw] at hp
    cases h <;> cases hp
  · rw [hw] at hp ⊢
    exact hi.pending i hp

lemma reserved_push (i : Fin 24) :
    (word (s.push e).mem i).state = .initializing ↔ (initializer i (e :: s.log)).isSome = true := by
  have hr := hi.reserved i
  rcases hl.word_cases i with ⟨new, hsw, hw, h⟩ | ⟨new, hst, hw, h⟩ | ⟨hw, hq⟩
  · rw [hw, initializer_cons_swapped hsw]
    by_cases hnew : new.state = .initializing
    · simp [hnew]
    simp [hnew, ← hr, h.ne_initializing]
  · rw [hw, initializer_cons_stored hst]
    cases h <;> simp
  · rw [hw, initializer_cons_quiet hq]
    exact hr

lemma held_push (h : TaskHandle) (t : T) (hh : holder h (e :: s.log) = some t) :
    ∃ i, h.At i (word (s.push e).mem i) ∧ (word (s.push e).mem i).Active := by
  rcases holder_cons.mp hh with ⟨hc, -⟩ | ⟨hc, hf, hh⟩
  · obtain ⟨i, rfl, -, hw⟩ := hl.claims hc
    refine ⟨i, ?_, ?_⟩
    · rw [hw]
      exact ⟨rfl, pack_word_generation _ _⟩
    · rw [hw]
      exact .inl rfl
  · obtain ⟨i, hat, hact⟩ := hi.held h t hh
    refine ⟨i, ?_⟩
    rcases hl.word_cases i with ⟨new, hsw, hw, hswap⟩ | ⟨new, hst, hw, hpub⟩ | ⟨hw, -⟩
    · rw [hw]
      refine ⟨⟨hat.1, hswap.generation.trans hat.2⟩, ?_⟩
      by_contra hnew
      refine hf ?_
      rw [finishes_of_swapped hsw, if_pos ⟨hact, fun h => hnew (.inl h), fun h => hnew (.inr h)⟩, TaskHandle.at_iff.mp hat]
    · have hsome : (word s.mem i).state = .initializing := by
        cases hpub <;> exact hi.initializing ‹_›
      rcases hact with hact | hact <;> rw [hact] at hsome <;> cases hsome
    · rw [hw]
      exact ⟨hat, hact⟩

lemma active_push (i : Fin 24) (hact : (word (s.push e).mem i).Active) :
    (holder (taskAt i (word (s.push e).mem i)) (e :: s.log)).isSome = true := by
  rcases hl.word_cases i with ⟨new, hsw, hw, hswap⟩ | ⟨new, hst, hw, hpub⟩ | ⟨hw, hq⟩
  · rw [hw] at hact ⊢
    rw [taskAt_congr i hswap.generation]
    by_cases hold : (word s.mem i).Active
    · obtain ⟨t, ht⟩ := isSome_iff_exists.mp (hi.active i hold)
      have hf : finishes e ≠ some (taskAt i (word s.mem i)) := by
        rw [finishes_of_swapped hsw, if_neg]
        · simp
        · rintro ⟨-, h1, h2⟩
          rcases hact with h | h
          · exact h1 h
          · exact h2 h
      rw [holder_cons.mpr (.inr ⟨hi.not_claims hl ht, hf, ht⟩)]
      rfl
    · have hc : claims e = some (taskAt i (word s.mem i)) := by
        rw [claims_of_swapped hsw]
        cases hswap with
        | claim h => rw [if_pos ⟨h, rfl⟩]
        | wakeRunning h | stopRunning h => exact absurd (.inl h) hold
        | finish next h => exact absurd h hold
        | _ => rcases hact with h | h <;> cases h
      rw [holder_cons.mpr (.inl ⟨hc, rfl⟩)]
      rfl
  · rw [hw] at hact
    cases hpub <;> rcases hact with h | h <;> cases h
  · rw [hw] at hact ⊢
    obtain ⟨t, ht⟩ := isSome_iff_exists.mp (hi.active i hact)
    rw [holder_cons.mpr (.inr ⟨hq.not_claims rfl, hq.not_finishes rfl, ht⟩)]
    rfl

lemma unfinished_push (t : T) (h : TaskHandle) (hu : Scheduler.unfinished t h (e :: s.log) = true) :
    holder h (e :: s.log) = some t ∧ outcome h (e :: s.log) = none := by
  rcases unfinished_cons.mp hu with hc | ⟨hu, hne⟩
  · refine ⟨holder_cons.mpr (.inl hc), ?_⟩
    rw [eq_none_iff_forall_ne_some]
    intro o ho
    exact (outcome_cons.mp ho).1 hc.1
  obtain ⟨hh, hout⟩ := hi.unfinished t h hu
  have hf : Scheduler.finishes e ≠ some h := by
    intro hf
    obtain ⟨i, -, -, -, hheld, hbegun, -⟩ := hl.finishes hf
    rw [hh] at hheld
    rw [← some.inj hheld, hu] at hbegun
    cases hbegun
  refine ⟨holder_cons.mpr (.inr ⟨hi.not_claims hl hh, hf, hh⟩), ?_⟩
  rw [eq_none_iff_forall_ne_some]
  intro o ho
  rcases (outcome_cons.mp ho).2 with ⟨u, rfl⟩ | ⟨ho, -⟩
  · -- only the thread itself may begin `finish` on the task
    have hmay : Scheduler.unfinished u h s.log = true := (hl.call u _ rfl).2.1
    have hu' := (hi.unfinished u h hmay).1
    rw [hh] at hu'
    cases some.inj hu'
    exact hne o rfl
  · rw [hout] at ho
    cases ho

lemma retired_push {g : ℕ} (hr : Retired s i g) : Retired (s.push e) i g := by
  have hle := hl.generation_le i
  rcases hr with hlt | ⟨hg, hst⟩
  · exact .inl (by omega)
  rcases hl.word_cases i with ⟨new, hsw, hw, hswap⟩ | ⟨new, hstore, hw, hpub⟩ | ⟨hw, hq⟩
  · refine .inr ⟨by rw [hw, hswap.generation, hg], ?_⟩
    have hlog : (s.push e).log = e :: s.log := rfl
    rw [hw, hlog, initializer_cons_swapped hsw]
    rcases hst with hst | hst | ⟨t, ht⟩
    · cases hswap with
      | finish next h hnext hblocked hstop => exact .inr (.inl (hstop hst))
      | stopWaiting h => rcases h with h | h <;> rw [h] at hst <;> cases hst
      | _ h => rw [h] at hst; cases hst
    · cases hswap with
      | reclaim h => exact .inr (.inr ⟨e.thread, by simp [hst]⟩)
      | finish next h | stopWaiting h => rcases h with h | h <;> rw [h] at hst <;> cases hst
      | _ h => rw [h] at hst; cases hst
    · exact absurd (hi.initializing ht) hswap.ne_initializing
  · -- a reserved word is published: the task is gone, unless the slot was reserved to spawn
    left
    rw [hw]
    cases hpub with
    | vacated h hlt =>
      rw [pack_generation hlt]
      omega
    | spawned h =>
      have hres := hi.initializing h
      rcases hst with hst | hst | ⟨t, ht⟩
      · rw [hst] at hres
        cases hres
      · rw [hst] at hres
        cases hres
      · rw [h] at ht
        cases ht
  · refine .inr ⟨by rw [hw, hg], ?_⟩
    have hlog : (s.push e).log = e :: s.log := rfl
    rw [hw, hlog, initializer_cons_quiet hq]
    exact hst

lemma stopped_push (h : TaskHandle) (hs : Scheduler.stopped h (e :: s.log)) :
    ∃ i : Fin 24, i.val = h.slot ∧ Retired (s.push e) i h.generation := by
  obtain ⟨t, ht⟩ := hs
  rcases List.mem_cons.mp ht with rfl | ht
  · obtain ⟨i, hslot, hr⟩ := (hl.answer t _ _ rfl).2.stop h rfl rfl
    exact ⟨i, hslot, hi.retired_push hl hr⟩
  · obtain ⟨i, hslot, hr⟩ := hi.stopped h ⟨t, ht⟩
    exact ⟨i, hslot, hi.retired_push hl hr⟩

lemma reclaimed_push (h : TaskHandle) (hs : Scheduler.reclaimed h (e :: s.log)) :
    ∃ i : Fin 24, i.val = h.slot ∧ h.generation < (word (s.push e).mem i).generation := by
  obtain ⟨t, ht⟩ := hs
  rcases List.mem_cons.mp ht with rfl | ht
  · obtain ⟨i, hslot, hr⟩ := (hl.answer t _ _ rfl).2.reclaim h rfl rfl
    exact ⟨i, hslot, hr.trans_le (hl.generation_le i)⟩
  · obtain ⟨i, hslot, hr⟩ := hi.reclaimed h ⟨t, ht⟩
    exact ⟨i, hslot, hr.trans_le (hl.generation_le i)⟩

lemma unsaved_push (hσ : σ) (t : T) (h : TaskHandle) (hu : Scheduler.unsaved t h (e :: s.log) = true) :
    holder h (e :: s.log) = some t ∧ saved t h (e :: s.log) = false := by
  rcases unsaved_cons.mp hu with hc | ⟨hu', -⟩
  · refine ⟨holder_cons.mpr (.inl hc), ?_⟩
    rw [← Bool.not_eq_true, saved_cons]
    exact fun h => h.1 hc
  obtain ⟨hh, hsaved⟩ := hi.unsaved hσ t h hu'
  have hf : Scheduler.finishes e ≠ some h := by
    intro hf
    obtain ⟨i, -, -, -, hheld, -, hsv⟩ := hl.finishes hf
    rw [hh] at hheld
    rw [← some.inj hheld, hsaved] at hsv
    cases hsv hσ
  refine ⟨holder_cons.mpr (.inr ⟨hi.not_claims hl hh, hf, hh⟩), ?_⟩
  rw [← Bool.not_eq_true, saved_cons]
  rintro ⟨-, ⟨rsp, rfl⟩ | hs⟩
  · rw [(hl.answer t _ _ rfl).2.save h rsp rfl rfl] at hu'
    cases hu'
  · rw [hsaved] at hs
    cases hs

lemma debt_push (t : T) (i : Fin 24) (hd : Scheduler.debt t i (e :: s.log) = true) :
    ∃ c, inCall t (e :: s.log) = some c ∧ c.rouses = true := by
  rcases debt_cons.mp hd with ⟨hc, rfl⟩ | ⟨hd, -, hret⟩
  · obtain ⟨t, c, a, rfl, hr, -⟩ := clears_spec hc
    exact ⟨c, hl.within t c a rfl, hr⟩
  obtain ⟨c, hin, hr⟩ := hi.debt t i hd
  refine ⟨c, ?_, hr⟩
  by_cases ht : e.thread = t
  · cases e with
    | called u c' =>
      subst ht
      have hidle := (hl.call u c' rfl).1
      rw [show (Entry.called u c' : LogEntry T).thread = u from rfl, hidle] at hin
      cases hin
    | did u c' a => exact hin
    | returned u c' reply =>
      cases ht
      exact absurd rfl (hret c' reply)
  · rw [inCall_cons_of_ne ht]
    exact hin

lemma chronicle_push : Chronicle σ ω (e :: s.log) := by
  refine ⟨hi.chronicle, ?_, ?_, ?_, ?_⟩
  · intro h hc
    obtain ⟨i, rfl, hrun, -⟩ := hl.claims hc
    constructor
    · rw [eq_none_iff_forall_ne_some]
      intro t ht
      exact hi.not_claims hl ht hc
    intro hs
    obtain ⟨k, hk, hr⟩ := hi.stopped _ hs
    cases Fin.ext hk
    rcases hr with hlt | ⟨-, hst | hst | ⟨t, ht⟩⟩
    · exact lt_irrefl _ hlt
    · rw [hst] at hrun
      cases hrun
    · rw [hst] at hrun
      cases hrun
    · rw [hi.initializing ht] at hrun
      cases hrun
  · intro h hf
    obtain ⟨i, -, -, -, hheld, -, hsaved⟩ := hl.finishes hf
    exact ⟨hheld, hsaved⟩
  · intro t c reply h he hc hr
    exact (hl.answer t c reply he).2.fresh h hc hr
  · intro hω i w hc hload hr
    rw [hl.clear hω i hc] at hload
    cases hload
    obtain ⟨k, hk, hlt⟩ := hi.reclaimed _ hr
    cases Fin.ext hk
    exact lt_irrefl _ hlt

/-- No word can be woken after a step but one that could before, and that of a task that was just claimed. -/
theorem rousable_push (hr : (word (s.push e).mem i).Rousable) :
    claims e = some (taskAt i (word (s.push e).mem i)) ∨
      ((word s.mem i).Rousable ∧ taskAt i (word (s.push e).mem i) = taskAt i (word s.mem i) ∧ settles i e = false ∧
        (word (s.push e).mem i = word s.mem i ∧ Quiet i e ∨
          (word s.mem i).Active ∧ word (s.push e).mem i = pack (word s.mem i).generation .blocked ∧
            swapped e = some (i, word s.mem i, pack (word s.mem i).generation .blocked))) := by
  rcases hl.word_cases i with ⟨new, hsw, hw, hswap⟩ | ⟨new, hst, hw, hpub⟩ | ⟨hw, hq⟩
  · rw [hw] at hr ⊢
    rw [taskAt_congr i hswap.generation]
    cases hswap with
    | claim h =>
      left
      rw [claims_of_swapped hsw, if_pos ⟨h, rfl⟩]
    | finish next h hnext hblocked =>
      have hnext' : next = .blocked := by
        rcases hr with ⟨hr, -⟩ | hr
        · rcases hnext with rfl | rfl | rfl <;> cases hr
        · exact hr
      subst hnext'
      refine .inr ⟨hblocked rfl, rfl, ?_, .inr ⟨h, rfl, hsw⟩⟩
      rw [settles_of_swapped hsw]
      rfl
    | wakeRunning h =>
      rcases hr with ⟨-, hr⟩ | hr
      · cases hr
      · rw [withWake_state, h] at hr
        cases hr
    | _ => rcases hr with ⟨hr, -⟩ | hr <;> cases hr
  · rw [hw] at hr
    cases hpub <;> rcases hr with ⟨hr, -⟩ | hr <;> cases hr
  · rw [hw] at hr ⊢
    exact .inr ⟨hr, rfl, settles_of_quiet hq, .inl ⟨rfl, hq⟩⟩

lemma awake_push (hω : ω) (i : Fin 24) (ha : Scheduler.awake (taskAt i (word (s.push e).mem i)) (e :: s.log) = true) :
    ¬ (word (s.push e).mem i).Rousable := by
  intro hr
  obtain ⟨hc, ha⟩ := awake_cons.mp ha
  rcases hi.rousable_push hl hr with hc' | ⟨hold, htask, -, hblocked⟩
  · exact hc hc'
  rw [htask] at ha
  rcases ha with ha | ha
  · rcases wakes_spec ha with ⟨k, old, new, hsw, hk, hwake⟩ | ⟨k, w, -, hclear, hload, hk, hw⟩
    · obtain ⟨rfl, -⟩ := taskAt_inj hk
      rcases hblocked with ⟨-, hq⟩ | ⟨-, -, hsw'⟩
      · exact hq.1 _ _ hsw
      rw [hsw] at hsw'
      cases hsw'
      rcases hwake with ⟨hst, hnew⟩ | ⟨-, hst⟩
      · cases congrArg StateWord.wakePending hnew
      · cases hst
    · obtain ⟨rfl, -⟩ := taskAt_inj hk
      rw [hl.clear hω _ hclear] at hload
      cases hload
      rcases hw with hw | hw
      · rcases hold with ⟨hold, -⟩ | hold <;> rw [hw] at hold <;> cases hold
      have hrun := hi.pending _ hw
      rcases hold with ⟨-, hold⟩ | hold
      · rw [hw] at hold
        cases hold
      · rw [hrun] at hold
        cases hold
  · exact hi.awake hω i ha hold

/-- What a step that touches neither the fields nor the word of a slot leaves of a registration. -/
theorem covered_of_same (hc : Covered s i r)
    (hreg : Registered s.mem i r → Registered (s.push e).mem i r) (hset : settles i e = false)
    (hret : ∀ t c reply, e = .returned t c reply → Scheduler.debt t i s.log = false) : Covered (s.push e) i r := by
  rcases hc with hc | ⟨t, ht⟩
  · exact .inl (hreg hc)
  · refine .inr ⟨t, debt_cons.mpr (.inr ⟨ht, hset, ?_⟩)⟩
    intro c reply he
    rw [hret t c reply he] at ht
    cases ht

lemma expecting_of_push (hx : Expecting (s.push e) i r)
    (hnew : ∀ r', registers e ≠ some (taskAt i (word (s.push e).mem i), r')) : Expecting s i r ∧ settles i e = false := by
  obtain ⟨hr, hreg, hout⟩ := hx
  obtain ⟨hc, -, hreg⟩ := registration_cons.mp hreg
  rcases hi.rousable_push hl hr with hc' | ⟨hold, htask, hset, -⟩
  · exact absurd hc' hc
  rw [htask] at hout hreg hc hnew
  refine ⟨⟨hold, (hreg.resolve_left (hnew r)).1, ?_⟩, hset⟩
  intro o ho
  by_cases he : ∃ u o', e = .called u (.finish (taskAt i (word s.mem i)) o')
  · obtain ⟨u, o', rfl⟩ := he
    have hmay : Scheduler.unfinished u (taskAt i (word s.mem i)) s.log = true := (hl.call u _ rfl).2.1
    rw [(hi.unfinished u _ hmay).2] at ho
    cases ho
  · refine hout o (outcome_cons.mpr ⟨hc, .inr ⟨ho, ?_⟩⟩)
    intro u o' heq
    exact he ⟨u, o', heq⟩

lemma covered_push (hω : ω) (i : Fin 24) (r : Registration) (hx : Expecting (s.push e) i r) : Covered (s.push e) i r := by
  cases e with
  | called t c =>
    obtain ⟨hx, hset⟩ := hi.expecting_of_push hl hx nofun
    exact hi.covered_of_same hl (hi.covered hω i r hx) id hset nofun
  | returned t c reply =>
    have hans := (hl.answer t c reply rfl).2
    have hdebt : ∀ u c' reply', (Entry.returned t c reply : LogEntry T) = .returned u c' reply' →
        Scheduler.debt u i s.log = false := by
      intro u c' reply' h
      cases h
      rw [← Bool.not_eq_true]
      intro hd
      exact hans.settled hω i hd hx.rousable
    by_cases hnew : ∃ r', registers (.returned t c reply : LogEntry T) = some (taskAt i (word s.mem i), r')
    · obtain ⟨r', hr'⟩ := hnew
      have heq : r' = r := by
        rcases (registration_cons.mp hx.registration).2.2 with h | ⟨-, h⟩
        · have hsome := hr'.symm.trans h
          injection hsome with hpair
          injection hpair
        · exact absurd hr' (h r')
      subst heq
      exact hi.covered_of_same hl ((hans.registers hω _ _ hr').2 i rfl hx.rousable) id
        (settles_of_quiet (quiet_returned t c reply)) hdebt
    · obtain ⟨hx', hset⟩ := hi.expecting_of_push hl hx (fun r' h => hnew ⟨r', h⟩)
      exact hi.covered_of_same hl (hi.covered hω i r hx') id hset hdebt
  | did t c a =>
    by_cases hclear : clears (.did t c a : LogEntry T) = some i
    · exact .inr ⟨t, debt_cons.mpr (.inl ⟨hclear, rfl⟩)⟩
    obtain ⟨hx, hset⟩ := hi.expecting_of_push hl hx nofun
    refine hi.covered_of_same hl (hi.covered hω i r hx) ?_ hset nofun
    by_cases hfield : waitField a = some i
    · have hnone : clears (.did t c a : LogEntry T) = none := by
        rw [clears] at hclear ⊢
        split
        · rename_i hr
          rw [if_pos hr] at hclear
          exact absurd hfield hclear
        · rfl
      exact (hl.field hω t c a i rfl hfield hnone).2 r hx
    · exact (registered_of_not_field hfield).mpr

end Inv

/-- **Legal entries keep the invariant.** -/
theorem Inv.push (hi : Inv σ ω s) (hl : Legal σ ω s e) : Inv σ ω (s.push e) where
  pending := hi.pending_push hl
  reserved := hi.reserved_push hl
  held := hi.held_push hl
  active := hi.active_push hl
  unfinished := hi.unfinished_push hl
  stopped := hi.stopped_push hl
  reclaimed := hi.reclaimed_push hl
  unsaved := hi.unsaved_push hl
  covered := hi.covered_push hl
  awake := hi.awake_push hl
  debt := hi.debt_push hl
  chronicle := hi.chronicle_push hl

/-- The scheduler as it starts. -/
theorem Inv.start : Inv σ ω (⟨new, []⟩ : State T) where
  pending := nofun
  reserved := fun i => by
    constructor
    · intro h
      cases h
    · intro h
      cases h
  held := nofun
  active := fun i h => by rcases h with h | h <;> cases h
  unfinished := nofun
  stopped := fun h hs => by
    obtain ⟨t, ht⟩ := hs
    cases ht
  reclaimed := fun h hs => by
    obtain ⟨t, ht⟩ := hs
    cases ht
  unsaved := nofun
  covered := fun _ i r hx => by cases hx.registration
  awake := nofun
  debt := nofun
  chronicle := trivial

end LogOS.Kernel.Scheduler
