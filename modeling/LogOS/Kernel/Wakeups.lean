import LogOS.Kernel.OneCpu

/-!
# No wakeup is lost

A task that waits can still be woken: what it registered is still in its slot, or a thread that took it out is on its way
to the task's state word and would wake it if it ran alone.  This holds in every run in which an operation clears the
fields of a slot only while the slot still has the state word that the operation loaded.  The operations do not make sure
of that: a scan for due deadlines that is overtaken between its load and its compare-exchange on the deadline clears the
registration of a later wait.
-/

namespace LogOS.Kernel.Scheduler

open Lib.Interleaving List

variable {T : Type} [DecidableEq T] {σ ω : Prop} {s : Machine T}

/-- A thread that owes a wake is under way. -/
theorem under_way_of_debt (hs : Holds (outline σ ω) (rules σ ω) s) (hω : ω) {t : T} {i : Fin 24}
    (hd : debt t i s.shared.log = true) (hb : (word s.shared.mem i).state = .blocked) :
    ∃ t c p n, s.thread t = some (c, p) ∧ (word (Prog.alone scheduler n p s.shared.mem) i).state ≠ .blocked := by
  obtain ⟨c, hin, hrouses⟩ := hs.inv.debt t i hd
  rw [hs.calls t, Option.map_eq_some_iff] at hin
  obtain ⟨⟨c', p⟩, hthread, rfl⟩ := hin
  obtain ⟨P, -, hP, hsafe⟩ := hs.stands t c' p hthread
  obtain ⟨n, hn⟩ := hsafe.seen s.shared hs.inv hP hω hrouses i hd hb
  exact ⟨t, c', p, n, hthread, hn⟩

/-- A wake that took effect is remembered until the task is claimed. -/
theorem awake_of_wakes {newer older : List (LogEntry T)} {e : LogEntry T} {h : TaskHandle}
    (hw : wakes older e = some h) (hn : ∀ g ∈ newer ++ [e], claims g ≠ some h) : awake h (newer ++ e :: older) = true := by
  induction newer with
  | nil => exact awake_cons.mpr ⟨hn e mem_cons_self, .inl hw⟩
  | cons g newer ih =>
    have hrest := ih fun x hx => hn x (mem_cons_of_mem g hx)
    exact awake_cons.mpr ⟨hn g mem_cons_self, .inr hrest⟩

/-- **No wakeup is lost**, where the operations clear the fields of a slot only under the word that they loaded. -/
theorem no_wakeup_is_lost (hs : Reached scheduler (rules False True) new s) : NoLostWakeup s := by
  have hholds := hs.holds (proved False True)
  refine ⟨?_, ?_, ?_⟩
  · intro i r o hb hreg hout hwaits
    have hx : Expecting s.shared i r := by
      refine ⟨.inr hb, hreg, ?_⟩
      intro o' ho'
      rw [hout] at ho'
      cases ho'
      exact hwaits
    rcases hholds.inv.covered trivial i r hx with hr | ⟨t, hd⟩
    · exact .inl hr
    · exact .inr (under_way_of_debt hholds trivial hd hb)
  · intro newer mid older e d h r hlog _ hw hclaims i hi hb
    have hawake : awake (taskAt i (word s.shared.mem i)) s.shared.log = true := by
      rw [hi, hlog]
      refine awake_of_wakes hw ?_
      intro g hg
      refine hclaims g ?_
      rcases mem_append.mp hg with hg | hg
      · exact mem_append_left _ hg
      · rw [mem_singleton.mp hg]
        exact mem_append_right _ mem_cons_self
    exact hholds.inv.awake trivial i hawake (.inr hb)
  · intro newer older e i w hlog hc hload
    have hchron := hholds.inv.chronicle
    rw [hlog] at hchron
    exact hchron.suffix.2.2.2.2 trivial i w hc hload

/-- A task registers for an object or a deadline and blocks. -/
def waits : List (Move Bool Call) :=
  whole false (.onlineCpu 0) 2 ++ whole false (.spawn 0 0 none) 14 ++ whole false (.claimNext 0) 8 ++
    whole false (.waitForEventObject firstTask 5 100) 6 ++ whole false (.saveContext firstTask 77) 4 ++
    whole false (.finish firstTask .timedBlocked) 7

/-- The object that the task of a slot waits for. -/
def waitObject (m : Memory) (i : Fin 24) : ℕ := m (.waitObject i)

/-- The deadline of the task of a slot. -/
def wakeDeadline (m : Memory) (i : Fin 24) : ℕ := m (.wakeDeadline i)

/-- The other thread is about to make the task runnable, and has cleared both fields. -/
theorem no_wakeup_is_lost_under_way :
    (word (played (waits ++ whole true (.wake firstTask) 4)).shared.mem 0).state = .blocked ∧
    waitObject (played (waits ++ whole true (.wake firstTask) 4)).shared.mem 0 = 0 ∧
    wakeDeadline (played (waits ++ whole true (.wake firstTask) 4)).shared.mem 0 = noDeadline ∧
    NoLostWakeup (played (waits ++ whole true (.wake firstTask) 4)) :=
  ⟨by decide +kernel, by decide +kernel, by decide +kernel,
    no_wakeup_is_lost (Reached.schedule _ .start (by decide +kernel))⟩

/-! ## A wait that nobody ends -/

/-- A scan for due deadlines has loaded the word and the deadline of the waiting task.  The task is woken and claimed, and
registers the same wait again; now the scan goes on, and after it the task blocks. -/
def overtaken : List (Move Bool Call) :=
  waits ++ whole true (.wakeDue 200) 2 ++ whole false (.wake firstTask) 7 ++ whole false (.claimNext 0) 60 ++
    whole false (.waitForEventObject firstTask 5 100) 6 ++ List.replicate 40 (.run true) ++
    whole false (.saveContext firstTask 77) 4 ++ whole false (.finish firstTask .timedBlocked) 7

lemma overtaken_state : (word (played overtaken).shared.mem 0).state = .blocked ∧
    taskAt 0 (word (played overtaken).shared.mem 0) = firstTask ∧
    registration firstTask (played overtaken).shared.log = some ⟨some 5, 100⟩ ∧
    outcome firstTask (played overtaken).shared.log = some .timedBlocked ∧
    waitObject (played overtaken).shared.mem 0 = 0 ∧
    wakeDeadline (played overtaken).shared.mem 0 = noDeadline := by
  decide +kernel

/-- **A wakeup is lost.**  The task is blocked with neither field set, and no thread is under way. -/
theorem overtaken_scan_loses_a_wait :
    ∃ s : Machine Bool, Reached scheduler (rules True False) new s ∧ ¬ NoLostWakeup s := by
  refine ⟨played overtaken, Reached.schedule _ .start (by decide +kernel), ?_⟩
  intro h
  obtain ⟨hb, htask, hreg, hout, hobject, hdeadline⟩ := overtaken_state
  have hidle : ∀ t, ((played overtaken).thread t).isNone = true := by decide +kernel
  rcases h.waiting 0 ⟨some 5, 100⟩ .timedBlocked hb (htask ▸ hreg) (htask ▸ hout) trivial with hr | ⟨t, c, p, n, ht, -⟩
  · rcases hr with ⟨object, hfive, hwait⟩ | ⟨hwait, -⟩
    · cases hfive
      cases hobject.symm.trans hwait
    · cases hdeadline.symm.trans hwait
  · have hnone := hidle t
    rw [ht] at hnone
    cases hnone

end LogOS.Kernel.Scheduler
