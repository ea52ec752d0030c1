import LogOS.Abi

/-!
# The restart policy of the live services

The supervisor keeps one record for each service slot and decides when the whole graph is rebuilt.  The number of restarts
is counted in the records, so it lasts as long as they do: `ensure` drops the record of a stopped service for the sake of a
handle with another generation, and the count of that slot starts again.  Where the services come back under the handles
their records hold, some record has seen every restart, and the bound holds over a whole run.
-/

namespace LogOS.Kernel.Supervisor

open Abi List

def heartbeatInterval : ℕ := 100
def missedHeartbeats : ℕ := 3
def maxRestarts : ℕ := 3
def startupGraceTicks : ℕ := heartbeatInterval * 20

def saturate64 (n : ℕ) : ℕ := min n (2 ^ 64 - 1)

inductive ServiceState where
  | stopped | running | unhealthy
  deriving DecidableEq, Repr

inductive ProcessState where
  | vacant | starting | running
  | exited (code : ℕ)
  | faulted (code : ℕ)
  deriving DecidableEq, Repr

structure ServiceRecord where
  handle : ServiceHandle
  state : ServiceState
  lastHeartbeat : ℕ
  missedHeartbeats : ℕ
  restarts : ℕ
  startupGraceUntil : ℕ
  deriving DecidableEq, Repr

def ServiceRecord.empty : ServiceRecord := ⟨⟨0⟩, .stopped, 0, 0, 0, 0⟩

structure LiveSupervisor where
  records : List (Option ServiceRecord)
  recovery : Bool
  startupGraceArmed : Bool
  deriving DecidableEq, Repr

namespace LiveSupervisor

def new : LiveSupervisor := ⟨[], false, false⟩

def record? (s : LiveSupervisor) (index : ℕ) : Option ServiceRecord := (s.records[index]?).join

/-- The answer of the allocator, `reserved`, is only asked for when the table has to grow. -/
def ensure (handle : ServiceHandle) (reserved : Bool) (s : LiveSupervisor) : Bool × LiveSupervisor :=
  if !handle.isValid then (false, s)
  else if s.records.length ≤ handle.index ∧ !reserved then (false, s)
  else
    let s := { s with records := s.records ++ List.replicate (handle.index + 1 - s.records.length) none }
    match s.record? handle.index with
    | none => (true, s)
    | some record =>
      if record.handle = handle then (true, s)
      else if record.state = .stopped then (true, { s with records := s.records.set handle.index none })
      else (false, s)

def register (handle : ServiceHandle) (now : ℕ) (reserved : Bool) (s : LiveSupervisor) : Bool × LiveSupervisor :=
  match s.ensure handle reserved with
  | (false, s) => (false, s)
  | (true, s) =>
    let record :=
      { (s.record? handle.index).getD .empty with
        handle := handle
        state := .running
        lastHeartbeat := now
        missedHeartbeats := 0
        startupGraceUntil := if s.startupGraceArmed then saturate64 (now + startupGraceTicks) else 0 }
    (true, { s with records := s.records.set handle.index (some record) })

def unregister (handle : ServiceHandle) (s : LiveSupervisor) : LiveSupervisor :=
  match s.record? handle.index with
  | some record => if record.handle = handle then { s with records := s.records.set handle.index none } else s
  | none => s

def retainSlots (handles : List ServiceHandle) (s : LiveSupervisor) : LiveSupervisor :=
  { s with records := s.records.map fun slot => slot.filter fun record =>
      handles.any fun handle => handle.index = record.handle.index }

end LiveSupervisor

/-- One turn of the loop of `poll`: the record afterwards, and whether the service is given up. -/
def ServiceRecord.check (now heartbeat : ℕ) (process : Option ProcessState) (record : ServiceRecord) :
    ServiceRecord × Bool :=
  if record.state ≠ .running then (record, false)
  else if process.any (· ≠ .running) then ({ record with state := .unhealthy }, true)
  else
    let record := if record.lastHeartbeat < heartbeat then
      { record with lastHeartbeat := heartbeat, missedHeartbeats := 0, startupGraceUntil := 0 } else record
    if now < record.startupGraceUntil then (record, false)
    else if now - record.lastHeartbeat < heartbeatInterval then (record, false)
    else
      let missed := min ((now - record.lastHeartbeat) / heartbeatInterval) 255
      let record := { record with
        missedHeartbeats := min (record.missedHeartbeats + max missed 1) 255, lastHeartbeat := now }
      if Supervisor.missedHeartbeats ≤ record.missedHeartbeats then ({ record with state := .unhealthy }, true)
      else (record, false)

/-- The loop of `poll` from the slot `index` on. -/
def pollFrom (now : ℕ) (heartbeats : ℕ → ℕ) (processStates : ℕ → Option ProcessState) :
    ℕ → List (Option ServiceRecord) → Option ServiceHandle × List (Option ServiceRecord)
  | _, [] => (none, [])
  | index, none :: rest =>
    let (failed, rest) := pollFrom now heartbeats processStates (index + 1) rest
    (failed, none :: rest)
  | index, some record :: rest =>
    match record.check now (heartbeats index) (processStates index) with
    | (record, true) => (some record.handle, some record :: rest)
    | (record, false) =>
      let (failed, rest) := pollFrom now heartbeats processStates (index + 1) rest
      (failed, some record :: rest)

/-- A record whose service is stopped for a restart. -/
def ServiceRecord.restart (record : ServiceRecord) : ServiceRecord :=
  { record with state := .stopped, lastHeartbeat := 0, missedHeartbeats := 0, restarts := record.restarts + 1 }

namespace LiveSupervisor

def poll (now : ℕ) (heartbeats : ℕ → ℕ) (processStates : ℕ → Option ProcessState) (s : LiveSupervisor) :
    Option ServiceHandle × LiveSupervisor :=
  let (failed, records) := pollFrom now heartbeats processStates 0 s.records
  (failed, { s with records := records })

def prepareRestart (s : LiveSupervisor) : Bool × LiveSupervisor :=
  if s.recovery ∨ s.records.any (·.any (maxRestarts ≤ ·.restarts)) then (false, { s with recovery := true })
  else (true, { s with records := s.records.map (·.map ServiceRecord.restart), startupGraceArmed := true })

def prepareTargetedRestart (handle : ServiceHandle) (s : LiveSupervisor) : Bool × LiveSupervisor :=
  match s.record? handle.index with
  | none => (false, s)
  | some record =>
    if record.handle ≠ handle then (false, s)
    else if maxRestarts ≤ record.restarts then (false, { s with recovery := true })
    else (true, { s with
      records := s.records.set handle.index (some record.restart), startupGraceArmed := true })

def clearStartupGrace (s : LiveSupervisor) : LiveSupervisor := { s with startupGraceArmed := false }

def armStartupGrace (s : LiveSupervisor) : LiveSupervisor := { s with startupGraceArmed := true }

end LiveSupervisor

/-! ## Runs -/

/-- A call of the supervisor. -/
inductive Call where
  | ensure (handle : ServiceHandle) (reserved : Bool)
  | register (handle : ServiceHandle) (now : ℕ) (reserved : Bool)
  | unregister (handle : ServiceHandle)
  | retainSlots (handles : List ServiceHandle)
  | poll (now : ℕ) (heartbeats : ℕ → ℕ) (processStates : ℕ → Option ProcessState)
  | prepareRestart
  | prepareTargetedRestart (handle : ServiceHandle)
  | clearStartupGrace
  | armStartupGrace

/-- The supervisor after a call. -/
def Call.step : Call → LiveSupervisor → LiveSupervisor
  | ensure handle reserved, s => (s.ensure handle reserved).2
  | register handle now reserved, s => (s.register handle now reserved).2
  | unregister handle, s => s.unregister handle
  | retainSlots handles, s => s.retainSlots handles
  | poll now heartbeats processStates, s => (s.poll now heartbeats processStates).2
  | prepareRestart, s => s.prepareRestart.2
  | prepareTargetedRestart handle, s => (s.prepareTargetedRestart handle).2
  | clearStartupGrace, s => s.clearStartupGrace
  | armStartupGrace, s => s.armStartupGrace

/-- The answers of `prepare_restart` along a run, each with the recovery flag it leaves. -/
def restarts : List Call → LiveSupervisor → List (Bool × Bool)
  | [], _ => []
  | .prepareRestart :: calls, s =>
    (s.prepareRestart.1, s.prepareRestart.2.recovery) :: restarts calls s.prepareRestart.2
  | call :: calls, s => restarts calls (call.step s)

/-- Nothing that counts restarts is dropped: services come back under the handle of their record, no record is removed, and
a restart finds a service to count it. -/
def Call.Keeps (s : LiveSupervisor) : Call → Prop
  | ensure handle _ | register handle _ _ => ∀ record ∈ s.record? handle.index, record.handle = handle
  | unregister _ => False
  | retainSlots handles => ∀ record, some record ∈ s.records → ∃ handle ∈ handles, handle.index = record.handle.index
  | prepareRestart => ∃ record, some record ∈ s.records
  | _ => True

/-- Every call of the run keeps the counts, in the state it finds. -/
def Keeping : List Call → LiveSupervisor → Prop
  | [], _ => True
  | call :: calls, s => call.Keeps s ∧ Keeping calls (call.step s)

/-- Each restart under new handles, as the runtime gives them, finds the counts at zero: it is one more than the limit and
succeeds. -/
theorem prepareRestart_unbounded :
    let calls := [1, 2, 3, 4].flatMap fun epoch => [.register ⟨epoch * 2 ^ 32⟩ 0 true, .prepareRestart]
    restarts calls .new = List.replicate (maxRestarts + 1) (true, false) := by
  decide

/-! ## The count -/

open LiveSupervisor

/-- Some record has seen `n` restarts. -/
def Counted (n : ℕ) (records : List (Option ServiceRecord)) : Prop :=
  ∃ record, some record ∈ records ∧ n ≤ record.restarts

variable {n : ℕ} {s : LiveSupervisor} {records : List (Option ServiceRecord)}

/-- Another record in the place of one that has counted no more. -/
theorem Counted.set {i : ℕ} {new : ServiceRecord} (h : Counted n records) (hi : i < records.length)
    (hle : ∀ record ∈ (records[i]?).join, record.restarts ≤ new.restarts) : Counted n (records.set i (some new)) := by
  obtain ⟨record, hm, hn⟩ := h
  obtain ⟨j, hj, hget⟩ := mem_iff_getElem.mp hm
  by_cases hij : i = j
  · subst hij
    refine ⟨new, mem_set hi (some new), hn.trans (hle record ?_)⟩
    simp [hi, hget]
  · exact ⟨record, mem_iff_getElem.mpr ⟨j, by simpa using hj, by rw [getElem_set_ne hij, hget]⟩, hn⟩

lemma Counted.map {f : Option ServiceRecord → Option ServiceRecord} {m : ℕ} (h : Counted n records)
    (hf : ∀ record, some record ∈ records → ∃ new ∈ f (some record), record.restarts + m ≤ new.restarts) :
    Counted (n + m) (records.map f) := by
  obtain ⟨record, hm, hn⟩ := h
  obtain ⟨new, hnew, hle⟩ := hf record hm
  exact ⟨new, mem_map.mpr ⟨_, hm, hnew⟩, (Nat.add_le_add_right hn m).trans hle⟩

lemma Counted.congr {later : List (Option ServiceRecord)} (h : Counted n records)
    (heq : later.map (·.map (·.restarts)) = records.map (·.map (·.restarts))) : Counted n later := by
  obtain ⟨record, hm, hn⟩ := h
  have hcount : some record.restarts ∈ later.map (·.map (·.restarts)) := heq ▸ mem_map_of_mem hm
  obtain ⟨slot, hslot, hrestarts⟩ := mem_map.mp hcount
  obtain ⟨new, rfl, hnew⟩ := Option.map_eq_some_iff.mp hrestarts
  exact ⟨new, hslot, hn.trans hnew.ge⟩

lemma restarts_check (now heartbeat : ℕ) (process : Option ProcessState) (record : ServiceRecord) :
    (record.check now heartbeat process).1.restarts = record.restarts := by
  unfold ServiceRecord.check
  dsimp only
  split_ifs <;> rfl

lemma restarts_pollFrom (now : ℕ) (heartbeats : ℕ → ℕ) (processStates : ℕ → Option ProcessState) (index : ℕ)
    (records : List (Option ServiceRecord)) : (pollFrom now heartbeats processStates index records).2.map
      (·.map (·.restarts)) = records.map (·.map (·.restarts)) := by
  fun_induction pollFrom now heartbeats processStates index records with
  | case1 => rfl
  | case2 index rest failed rest' heq ih => simpa [heq] using ih
  | case3 index first rest record hcheck =>
    simpa [hcheck] using restarts_check now (heartbeats index) (processStates index) first
  | case4 index first rest record hcheck failed rest' heq ih =>
    have hfirst := restarts_check now (heartbeats index) (processStates index) first
    rw [hcheck] at hfirst
    rw [heq] at ih
    simpa using ⟨hfirst, ih⟩

/-! ## Every call keeps the count -/

lemma Counted.ensure {handle : ServiceHandle} {reserved : Bool} (h : Counted n s.records)
    (hk : ∀ record ∈ s.record? handle.index, record.handle = handle) :
    Counted n (s.ensure handle reserved).2.records ∧ ((s.ensure handle reserved).1 = true →
      handle.index < (s.ensure handle reserved).2.records.length) := by
  unfold LiveSupervisor.ensure
  dsimp only
  split_ifs with hv hr
  · exact ⟨h, by simp⟩
  · exact ⟨h, by simp⟩
  have hgrown : Counted n (s.records ++ replicate (handle.index + 1 - s.records.length) none) :=
    h.imp fun record hr => ⟨mem_append_left _ hr.1, hr.2⟩
  split
  · exact ⟨hgrown, fun _ => by simp; omega⟩
  next record hrec =>
  have hsame : record.handle = handle := by
    refine hk record ?_
    by_cases hi : handle.index < s.records.length
    · simpa [record?, getElem?_append_left hi] using hrec
    · have hlt : handle.index - s.records.length < handle.index + 1 - s.records.length := by omega
      simp [record?, getElem?_append_right (Nat.le_of_not_lt hi), hlt] at hrec
  rw [if_pos hsame]
  exact ⟨hgrown, fun _ => by simp; omega⟩

lemma Counted.register {handle : ServiceHandle} {now : ℕ} {reserved : Bool} (h : Counted n s.records)
    (hk : ∀ record ∈ s.record? handle.index, record.handle = handle) :
    Counted n (s.register handle now reserved).2.records := by
  obtain ⟨hc, hlt⟩ : Counted n (s.ensure handle reserved).2.records ∧ _ := h.ensure hk
  unfold LiveSupervisor.register
  split
  · next heq => simpa [heq] using hc
  · next heq =>
    rw [heq] at hc hlt
    refine hc.set (hlt rfl) fun record hrec => ?_
    simp [record?, Option.mem_def.mp hrec]

lemma Counted.prepareTargetedRestart {handle : ServiceHandle} (h : Counted n s.records) :
    Counted n (s.prepareTargetedRestart handle).2.records := by
  unfold LiveSupervisor.prepareTargetedRestart
  split
  · exact h
  next record hrec =>
  have hi : handle.index < s.records.length := by
    by_contra hge
    simp [record?, hge] at hrec
  split_ifs
  · exact h
  · exact h
  · refine h.set hi fun old hold => ?_
    obtain rfl : record = old := by simpa [record?, Option.mem_def.mp hold] using hrec.symm
    exact Nat.le_succ _

/-- A restart that is allowed finds no record at the limit and counts one more on each; one that is refused leaves the
supervisor in recovery. -/
theorem prepareRestart_cases (s : LiveSupervisor) : (s.prepareRestart = (false, { s with recovery := true })) ∨
      (s.recovery = false ∧ s.prepareRestart.1 = true ∧ s.prepareRestart.2.recovery = false ∧
        ∀ n, Counted n s.records → n < maxRestarts ∧ Counted (n + 1) s.prepareRestart.2.records) := by
  unfold prepareRestart
  split_ifs with hlimit
  · exact .inl rfl
  simp only [not_or, Bool.not_eq_true] at hlimit
  refine .inr ⟨hlimit.1, rfl, hlimit.1, fun n h => ⟨?_, h.map fun record _ => ⟨record.restart, rfl, le_rfl⟩⟩⟩
  obtain ⟨record, hm, hn⟩ := h
  have := any_eq_false.mp hlimit.2 _ hm
  simp at this
  omega

/-- The call leaves the count and the recovery flag, unless it is a restart. -/
theorem Counted.step {call : Call} (hk : call.Keeps s) (hne : call ≠ .prepareRestart) (h : Counted n s.records) :
    Counted n (call.step s).records := by
  cases call with
  | ensure handle reserved => exact (h.ensure hk).1
  | register handle now reserved => exact h.register hk
  | unregister handle => exact hk.elim
  | retainSlots handles =>
    refine h.map (m := 0) fun record hm => ⟨record, ?_, le_rfl⟩
    obtain ⟨handle, hh, hindex⟩ := hk record hm
    simpa using ⟨handle, hh, hindex⟩
  | poll now heartbeats processStates => exact h.congr (restarts_pollFrom now heartbeats processStates 0 s.records)
  | prepareRestart => exact absurd rfl hne
  | prepareTargetedRestart handle => exact h.prepareTargetedRestart
  | clearStartupGrace | armStartupGrace => exact h

lemma recovery_step (call : Call) (h : s.recovery = true) : (call.step s).recovery = true := by
  cases call <;> simp only [Call.step, ensure, register, unregister,
    retainSlots, poll, prepareRestart, prepareTargetedRestart,
    clearStartupGrace, armStartupGrace] <;> grind

variable (calls : List Call)

lemma restarts_recovery (h : s.recovery = true) : restarts calls s = replicate (restarts calls s).length (false, true) := by
  fun_induction restarts calls s with
  | case1 => rfl
  | case2 calls s ih =>
    have hp : s.prepareRestart = (false, { s with recovery := true }) := if_pos (.inl h)
    rw [length_cons, replicate_succ, ← ih (by rw [hp]), hp]
  | case3 call calls s _ ih => exact ih (recovery_step call h)

/-- The answers from a state whose count is `n`: as many restarts as the limit leaves, then refusals. -/
theorem restarts_counted (hk : Keeping calls s) (h : n = 0 ∨ Counted n s.records)
    (hn : n ≤ maxRestarts) : ∃ granted refused, restarts calls s =
      replicate granted (true, false) ++ replicate refused (false, true) ∧ n + granted ≤ maxRestarts := by
  fun_induction restarts calls s generalizing n with
  | case1 => exact ⟨0, 0, rfl, hn⟩
  | case2 calls s ih =>
    obtain hp | ⟨-, hp, hrec, hcount⟩ := prepareRestart_cases s
    · refine ⟨0, (restarts calls s.prepareRestart.2).length + 1, ?_, hn⟩
      have hflag : s.prepareRestart.2.recovery = true := by rw [hp]
      rw [restarts_recovery calls hflag, hp]
      simp [replicate_succ]
    · have hc : Counted n s.records := h.elim (fun h0 => hk.1.imp fun record hm => ⟨hm, by omega⟩) id
      obtain ⟨hlt, hc'⟩ := hcount n hc
      obtain ⟨granted, refused, heq, hle⟩ := ih hk.2 (.inr hc') hlt
      exact ⟨granted + 1, refused, by rw [hp, hrec, heq]; rfl, by omega⟩
  | case3 call calls s hne ih => exact ih hk.2 (h.imp_right (Counted.step hk.1 hne)) hn

/-- **Restarts are bounded**: in a run from the start whose calls keep the counts, `prepare_restart` succeeds at most
`maxRestarts` times; after that it is refused, the supervisor is in recovery, and it is refused ever after. -/
theorem prepareRestart_bounded (hk : Keeping calls .new) : ∃ granted refused, granted ≤ maxRestarts ∧
    restarts calls .new = List.replicate granted (true, false) ++ List.replicate refused (false, true) := by
  obtain ⟨granted, refused, heq, hle⟩ := restarts_counted calls hk (.inl rfl) (Nat.zero_le _)
  exact ⟨granted, refused, by omega, heq⟩

theorem prepareRestart_bounded_five : ∃ granted refused, granted ≤ maxRestarts ∧
    restarts (.register ⟨2 ^ 32⟩ 0 true :: List.replicate 5 .prepareRestart) .new =
      List.replicate granted (true, false) ++ List.replicate refused (false, true) :=
  have found {s : LiveSupervisor} {record : ServiceRecord} {l} (h : s.records = some record :: l) :
      ∃ record, some record ∈ s.records := ⟨record, by rw [h]; exact List.mem_cons_self ..⟩
  prepareRestart_bounded _ ⟨fun _ h => (by cases h), found rfl, found rfl, found rfl, found rfl, found rfl, trivial⟩

end LogOS.Kernel.Supervisor
