import LogOS.Kernel.SchedulerProof

/-!
# A task runs on one CPU at a time

What the invariant of the scheduler says of whole runs.  Between two claims of a task there is a finish by the thread that
claimed it first, a task that was stopped is not claimed again, a handle that was reclaimed is dead, and, where every thread
saves a context before it finishes with it, a task is queued again only with a context of its last stint.
-/

set_option linter.unusedSectionVars false

namespace LogOS.Kernel.Scheduler

open Lib.Interleaving List

variable {T : Type} [DecidableEq T] {σ ω : Prop} {log : List (LogEntry T)}

/-! ## Reading the chronicle -/

variable {older mid : List (LogEntry T)} {e : LogEntry T} {h : TaskHandle}

lemma Chronicle.suffix {newer : List (LogEntry T)} (h : Chronicle σ ω (newer ++ older)) : Chronicle σ ω older := by
  induction newer with
  | nil => exact h
  | cons e newer ih => exact ih h.1

/-- After a claim the task is held by the thread that made it, until that thread finishes it. -/
theorem Chronicle.held_or_finished (hc : claims e = some h) (hlog : Chronicle σ ω (mid ++ e :: older)) :
    holder h (mid ++ e :: older) = some e.thread ∨ ∃ f ∈ mid, finishes f = some h ∧ f.thread = e.thread := by
  induction mid with
  | nil => exact .inl (holder_cons.mpr (.inl ⟨hc, rfl⟩))
  | cons g mid ih =>
    obtain ⟨hmid, hclaims, hfinishes, -, -⟩ := hlog
    rcases ih hmid with hh | ⟨f, hf, hff⟩
    · by_cases hg : finishes g = some h
      · have hthread := hh.symm.trans (hfinishes h hg).1
        exact .inr ⟨g, mem_cons_self, hg, (Option.some.inj hthread).symm⟩
      · refine .inl (holder_cons.mpr (.inr ⟨?_, hg, hh⟩))
        intro hgc
        cases hh.symm.trans (hclaims h hgc).1
    · exact .inr ⟨f, mem_cons_of_mem g hf, hff⟩

/-- Without another claim, the holder is the thread of the last one. -/
theorem holder_of_no_claim (hc : claims e = some h)
    (hmid : ∀ g ∈ mid, claims g ≠ some h) {t : T} (ht : holder h (mid ++ e :: older) = some t) : t = e.thread := by
  induction mid with
  | nil =>
    rcases holder_cons.mp ht with ⟨-, hthread⟩ | ⟨hne, -⟩
    · exact hthread.symm
    · exact absurd hc hne
  | cons g mid ih =>
    rcases holder_cons.mp ht with ⟨hg, -⟩ | ⟨-, -, ht⟩
    · exact absurd hg (hmid g mem_cons_self)
    · exact ih (fun x hx => hmid x (mem_cons_of_mem g hx)) ht

/-- A context that is saved since a claim was saved by a call that returned since. -/
theorem returned_of_saved (hc : claims e = some h) (hs : saved e.thread h (mid ++ e :: older) = true) :
    ∃ rsp, .returned e.thread (.saveContext h rsp) (.flag true) ∈ mid := by
  induction mid with
  | nil => exact absurd ⟨hc, rfl⟩ (saved_cons.mp hs).1
  | cons g mid ih =>
    rcases (saved_cons.mp hs).2 with ⟨rsp, rfl⟩ | hs
    · exact ⟨rsp, mem_cons_self⟩
    · obtain ⟨rsp, hr⟩ := ih hs
      exact ⟨rsp, mem_cons_of_mem g hr⟩

lemma callLog_append {t : T} {c : Call} (hmid : ∀ c', .called t c' ∉ mid) :
    callLog t (mid ++ .called t c :: older) = older := by
  induction mid with
  | nil => exact if_pos rfl
  | cons g mid ih =>
    have hrest := ih fun c' hc' => hmid c' (mem_cons_of_mem g hc')
    rw [cons_append, callLog_push ?_, hrest]
    rintro c' rfl
    exact hmid c' mem_cons_self

/-! ## The promises -/

lemma Chronicle.exclusive (hlog : Chronicle σ ω log) (newer mid older : List (LogEntry T)) (e e' : LogEntry T)
    (h : TaskHandle) (heq : log = newer ++ e' :: (mid ++ e :: older)) (hc : claims e = some h)
    (hc' : claims e' = some h) : ∃ f ∈ mid, finishes f = some h ∧ f.thread = e.thread := by
  subst heq
  obtain ⟨hmid, hclaims, -⟩ := hlog.suffix
  rcases hmid.held_or_finished hc with hh | hf
  · rw [(hclaims h hc').1] at hh
    cases hh
  · exact hf

lemma Chronicle.stops (hlog : Chronicle σ ω log) (newer mid older : List (LogEntry T)) (t : T) (e : LogEntry T)
    (h : TaskHandle) (heq : log = newer ++ e :: (mid ++ .returned t (.requestStop h) (.flag true) :: older)) :
    claims e ≠ some h := by
  subst heq
  obtain ⟨-, hclaims, -⟩ := hlog.suffix
  intro hc
  exact (hclaims h hc).2 ⟨t, mem_append_right _ mem_cons_self⟩

lemma Chronicle.retires (hlog : Chronicle σ ω log) (newer mid between older : List (LogEntry T)) (t u : T) (c : Call)
    (h : TaskHandle) (reply : Reply)
    (heq : log = newer ++ .returned t c reply :: (mid ++ .called t c ::
      (between ++ .returned u (.reclaimCompleted h) (.flag true) :: older)))
    (hmid : ∀ c', .called t c' ∉ mid) (hc : c.handle? = some h) : reply.succeeded = false := by
  subst heq
  obtain ⟨-, -, -, hreturns, -⟩ := hlog.suffix
  rw [← Bool.not_eq_true]
  intro hr
  refine hreturns t c reply h rfl hc hr ?_
  rw [callLog_append hmid]
  exact ⟨u, mem_append_right _ mem_cons_self⟩

lemma Chronicle.requeues (hσ : σ) (hlog : Chronicle σ ω log) (newer mid older : List (LogEntry T))
    (e f : LogEntry T) (h : TaskHandle) (heq : log = newer ++ f :: (mid ++ e :: older)) (hc : claims e = some h)
    (hf : finishes f = some h) (hmid : ∀ g ∈ mid, claims g ≠ some h) :
    ∃ rsp, .returned e.thread (.saveContext h rsp) (.flag true) ∈ mid := by
  subst heq
  obtain ⟨-, -, hfinishes, -⟩ := hlog.suffix
  obtain ⟨hh, hsaved⟩ := hfinishes h hf
  have hthread := holder_of_no_claim hc hmid hh
  have hs := hsaved hσ
  rw [hthread] at hs
  exact returned_of_saved hc hs

/-- **A task runs on one CPU**, whatever the threads do that keep to the protocol: what needs no saved contexts. -/
theorem claims_exclude_each_other {s : Machine T} (hs : Reached scheduler (rules False False) new s) :
    (∀ newer mid older e e' h, s.shared.log = newer ++ e' :: (mid ++ e :: older) → claims e = some h →
      claims e' = some h → ∃ f ∈ mid, finishes f = some h ∧ f.thread = e.thread) ∧
    (∀ newer mid older t e h,
      s.shared.log = newer ++ e :: (mid ++ .returned t (.requestStop h) (.flag true) :: older) → claims e ≠ some h) ∧
    (∀ newer mid between older t u c h reply,
      s.shared.log = newer ++ .returned t c reply :: (mid ++ .called t c ::
        (between ++ .returned u (.reclaimCompleted h) (.flag true) :: older)) →
      (∀ c', .called t c' ∉ mid) → c.handle? = some h → reply.succeeded = false) := by
  have hlog := (hs.holds (proved False False)).inv.chronicle
  exact ⟨hlog.exclusive, hlog.stops, hlog.retires⟩

/-- **A task runs on one CPU**, where a thread finishes with a task only after it saved its context, or before anybody ever
did. -/
theorem runs_on_one_cpu {s : Machine T} (hs : Reached scheduler (rules True False) new s) : RunsOnOneCpu s.shared.log := by
  have hlog := (hs.holds (proved True False)).inv.chronicle
  exact ⟨hlog.exclusive, hlog.stops, hlog.requeues trivial, hlog.retires⟩

/-! ## A context of an earlier stint -/

instance (s : State T) (t : T) : ∀ c, Decidable (MayCall s t c)
  | .finish h _ => inferInstanceAs (Decidable (unfinished t h s.log = true))
  | .saveContext h _ => inferInstanceAs (Decidable (unsaved t h s.log = true))
  | .armDeadline h _ => inferInstanceAs (Decidable (unfinished t h s.log = true))
  | .waitForEventObject h _ _ => inferInstanceAs (Decidable (unfinished t h s.log = true))
  | .reclaimCompleted h => inferInstanceAs (Decidable (h.generation + 1 < 2 ^ 56))
  | .onlineCpu _ | .spawn _ _ _ | .signalEventObject _ | .wakeDue _ | .wake _ | .requestStop _ | .claimNext _ => instDecidableTrue

instance (s : State T) (t : T) : ∀ c, Decidable (SavesFirst s t c)
  | .finish h _ =>
    have : ∀ i : Fin 24, Decidable (s.mem (.contextSaved i) = false) :=
      fun i => instDecidableEqBool (s.mem (.contextSaved i)) false
    inferInstanceAs (Decidable (saved t h s.log = true ∨
      ∀ i : Fin 24, i.val = h.slot → s.mem (.contextSaved i) = false))
  | .saveContext _ _ | .armDeadline _ _ | .waitForEventObject _ _ _ | .reclaimCompleted _ | .onlineCpu _ | .spawn _ _ _
  | .signalEventObject _ | .wakeDue _ | .wake _ | .requestStop _ | .claimNext _ => instDecidableTrue

instance (s : State T) (t : T) (c : Call) (a : Action Reg Val) : Decidable (ClearsCurrent s t c a) :=
  inferInstanceAs (Decidable (∀ i, clears (.did t c a : LogEntry T) = some i → lastLoad t i s.log = some (word s.mem i)))

instance [Decidable σ] [Decidable ω] (s : State T) (t : T) (c : Call) : Decidable ((rules σ ω).mayCall s t c) :=
  inferInstanceAs (Decidable (MayCall s t c ∧ (σ → SavesFirst s t c)))

instance [Decidable σ] [Decidable ω] (s : State T) (t : T) (c : Call) (a : Action Reg Val) :
    Decidable ((rules σ ω).mayAct s t c a) := inferInstanceAs (Decidable (ω → ClearsCurrent s t c a))

/-- One thread makes a call and runs it for a number of steps. -/
def whole (t : T) (c : Call) (steps : ℕ) : List (Move T Call) := .call t c :: List.replicate steps (.run t)

/-- The system that a schedule leads to. -/
def played (moves : List (Move T Call)) : Machine T := moves.foldl (System.step scheduler) (.start new)

/-- The first task that is spawned. -/
def firstTask : TaskHandle := ⟨0, 1, by decide⟩

/-- One CPU claims a task, saves its context and queues it again, and claims it a second time. -/
def twoStints : List (Move Unit Call) :=
  whole () (.onlineCpu 0) 2 ++ whole () (.spawn 0 0 none) 14 ++ whole () (.claimNext 0) 8 ++
    whole () (.saveContext firstTask 77) 4 ++ whole () (.finish firstTask .runnable) 7 ++ whole () (.claimNext 0) 60

theorem runs_on_one_cpu_two_stints :
    ((played (twoStints ++ whole () (.saveContext firstTask 78) 4 ++ whole () (.finish firstTask .runnable) 7)).shared.log.filterMap
      claims).length = 2 ∧
    RunsOnOneCpu
      (played (twoStints ++ whole () (.saveContext firstTask 78) 4 ++ whole () (.finish firstTask .runnable) 7)).shared.log :=
  ⟨by decide +kernel, runs_on_one_cpu (Reached.schedule _ .start (by decide +kernel))⟩

theorem claims_exclude_each_other_two_stints : ((played twoStints).shared.log.filterMap claims).length = 2 ∧
    ∀ newer mid older e e' h, (played twoStints).shared.log = newer ++ e' :: (mid ++ e :: older) →
      claims e = some h → claims e' = some h → ∃ f ∈ mid, finishes f = some h ∧ f.thread = e.thread := by
  have h := claims_exclude_each_other (s := played twoStints) (Reached.schedule _ .start (by decide +kernel))
  exact ⟨by decide +kernel, h.1⟩

lemma split_at {α : Type} {l : List α} {i j : ℕ} {f e : α} (hf : l[i]? = some f) (he : l[i + 1 + j]? = some e) :
    l = l.take i ++ f :: ((l.drop (i + 1)).take j ++ e :: l.drop (i + 1 + j + 1)) := by
  obtain ⟨hi, rfl⟩ := List.getElem?_eq_some_iff.mp hf
  obtain ⟨hj, rfl⟩ := List.getElem?_eq_some_iff.mp he
  have hrest : (l.drop (i + 1)).drop j = l[i + 1 + j] :: l.drop (i + 1 + j + 1) := by
    rw [List.drop_drop, List.drop_eq_getElem_cons hj]
  rw [← hrest, List.take_append_drop, ← List.drop_eq_getElem_cons hi, List.take_append_drop]

/-- A call of `save_context` that returned. -/
def savesContext : LogEntry T → Bool
  | .returned _ (.saveContext _ _) _ => true
  | _ => false

/-- **A context of an earlier stint.**  The flag `context_saved` stays set when a task is claimed again, so that the thread
can queue the task again without saving its context. -/
theorem stale_context_is_requeued :
    ∃ s : Machine Unit, Reached scheduler (rules False False) new s ∧ ¬ RunsOnOneCpu s.shared.log := by
  refine ⟨played (twoStints ++ whole () (.finish firstTask .runnable) 7),
    Reached.schedule _ .start (by decide +kernel), ?_⟩
  intro h
  have hfinish : ((played (twoStints ++ whole () (.finish firstTask .runnable) 7)).shared.log[1]?.bind finishes) =
    some firstTask := by decide +kernel
  have hclaim : ((played (twoStints ++ whole () (.finish firstTask .runnable) 7)).shared.log[1 + 1 + 9]?.bind claims) =
    some firstTask := by decide +kernel
  have hclaims : ((played (twoStints ++ whole () (.finish firstTask .runnable) 7)).shared.log.drop 2 |>.take 9).all
    (fun e => claims e != some firstTask) = true := by decide +kernel
  have hsaves : ((played (twoStints ++ whole () (.finish firstTask .runnable) 7)).shared.log.drop 2 |>.take 9).all
    (fun e => !savesContext e) = true := by decide +kernel
  obtain ⟨f, hf, hff⟩ := Option.bind_eq_some_iff.mp hfinish
  obtain ⟨e, he, hec⟩ := Option.bind_eq_some_iff.mp hclaim
  have hmid : ∀ g ∈ ((played (twoStints ++ whole () (.finish firstTask .runnable) 7)).shared.log.drop 2).take 9,
      claims g ≠ some firstTask := by
    intro g hg hgc
    have hno := all_eq_true.mp hclaims g hg
    rw [hgc] at hno
    exact absurd hno (by decide)
  obtain ⟨rsp, hr⟩ := h.requeues _ _ _ e f firstTask (split_at hf he) hec hff hmid
  cases all_eq_true.mp hsaves _ hr

end LogOS.Kernel.Scheduler
