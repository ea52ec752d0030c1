import LogOS.Kernel.Supervisor

/-!
# Heartbeats

A service that has been silent for `missedHeartbeats` intervals is given up.  Of the past `poll` keeps one time and one count,
and a poll that counts a miss puts its own time in the place of the last heartbeat.  So the rest of an interval is lost with
every such poll, and a heartbeat of the same tick that comes after it is not seen as a new one: a service that beats in
every interval can be given up, and a silent one can be found late.  Where neither happens, the verdict is exact.
-/

namespace LogOS.Kernel.Supervisor

open Abi LiveSupervisor List Function

/-- A poll, with the heartbeats and the processes that it finds. -/
structure Poll where
  now : ℕ
  heartbeats : ℕ → ℕ
  processStates : ℕ → Option ProcessState

namespace Poll

/-- The poll where the slot has a running process and `beat` as its last heartbeat. -/
def seeing (p : Poll) (slot beat : ℕ) : Poll :=
  ⟨p.now, update p.heartbeats slot beat, update p.processStates slot (some .running)⟩

def run (p : Poll) (s : LiveSupervisor) : Option ServiceHandle × LiveSupervisor := s.poll p.now p.heartbeats p.processStates

/-- The loop of the poll, over the records of the slots from `index` on. -/
def scan (p : Poll) : ℕ → List (Option ServiceRecord) → Option ServiceHandle × List (Option ServiceRecord) :=
  pollFrom p.now p.heartbeats p.processStates

end Poll

/-- A heartbeat of the service, or a poll.  A poll sees the heartbeats before it in the run, so one of its own tick may be
seen by it or only by the next one. -/
inductive Event where
  | beat (tick : ℕ)
  | poll (p : Poll)

def Event.tick : Event → ℕ
  | beat tick => tick
  | poll p => p.now

/-- When a service is to be given up that was registered and last beat at these times. -/
def deadline (since beat : ℕ) : ℕ := max beat since + missedHeartbeats * heartbeatInterval

/-- The time is within an interval of the one that the record holds when `beat` has been seen, or whole intervals after it. -/
def ServiceRecord.InStep (record : ServiceRecord) (beat now : ℕ) : Prop :=
  now - max record.lastHeartbeat beat < heartbeatInterval ∨ heartbeatInterval ∣ now - max record.lastHeartbeat beat

section Runs

variable (handle : ServiceHandle) (since : ℕ)

/-- The polls of a run: whether each one reports the service, and whether it should, with the deadline over and no lower slot
reported. -/
def polls : List Event → ℕ → LiveSupervisor → List (Bool × Bool)
  | [], _, _ => []
  | .beat tick :: events, _, s => polls events tick s
  | .poll p :: events, beat, s =>
    let q := p.seeing handle.index beat
    let (failed, s') := q.run s
    (failed = some handle ∧ (s'.record? handle.index).any (·.state = .unhealthy),
      deadline since beat ≤ p.now ∧ (q.scan 0 (s.records.take handle.index)).1 = none) :: polls events beat s'

/-- No heartbeat carries the tick of a poll that has counted a miss before it, and the polls are in step with the record. -/
def Timely : List Event → ℕ → LiveSupervisor → Prop
  | [], _, _ => True
  | .beat tick :: events, _, s =>
    (∀ record ∈ s.record? handle.index, record.missedHeartbeats = 0 ∨ record.lastHeartbeat < tick) ∧ Timely events tick s
  | .poll p :: events, beat, s =>
    (∀ record ∈ s.record? handle.index, record.InStep beat p.now) ∧ Timely events beat ((p.seeing handle.index beat).run s).2

/-- The service beats at least once in every interval. -/
def Steady : List Event → ℕ → Prop
  | [], _ => True
  | .beat tick :: events, beat => tick ≤ max beat since + heartbeatInterval ∧ Steady events tick
  | .poll p :: events, beat => p.now ≤ max beat since + heartbeatInterval ∧ Steady events beat

end Runs

/-- **Both verdicts can be wrong.**  A service that beats every 100 ticks, each time just after the poll of the same tick, is
reported by the third poll; a silent one is not reported by a poll after 300 ticks, when there was one after 150. -/
theorem heartbeats_misjudged :
    let handle : ServiceHandle := ⟨2 ^ 32⟩
    let s := (LiveSupervisor.new.register handle 0 true).2
    let poll (now : ℕ) : Event := .poll ⟨now, fun _ => 0, fun _ => none⟩
    let beating := [poll 100, .beat 100, poll 200, .beat 200, poll 300, .beat 300]
    Steady 0 beating 0 ∧ polls handle 0 beating 0 s = [(false, false), (false, false), (true, false)] ∧
      polls handle 0 [poll 150, poll 300] 0 s = [(false, false), (false, true)] := by
  refine ⟨by simp [Steady, heartbeatInterval], by decide, by decide⟩

/-! ## One poll -/

variable {handle : ServiceHandle} {since beat clock : ℕ} {record : ServiceRecord} {s : LiveSupervisor} {events : List Event}

/-- The record in a slot after a poll: checked, unless a lower slot is reported. -/
theorem Poll.scan_slot {p : Poll} {records : List (Option ServiceRecord)} {slot i : ℕ}
    (h : records[slot]? = some (some record)) :
    let polled := p.scan i records
    let checked := record.check p.now (p.heartbeats (i + slot)) (p.processStates (i + slot))
    if (p.scan i (records.take slot)).1 = none then
      polled.2[slot]? = some (some checked.1) ∧ (checked.2 = true → polled.1 = some checked.1.handle)
    else polled.2[slot]? = some (some record) := by
  unfold scan
  induction records generalizing i slot with
  | nil => cases h
  | cons first rest ih =>
    cases slot with
    | zero =>
      obtain rfl : first = some record := by simpa using h
      rcases hc : record.check p.now (p.heartbeats i) (p.processStates i) with ⟨record', _ | _⟩ <;> simp [pollFrom, hc]
    | succ slot =>
      have hrest := ih (i := i + 1) h
      rw [Nat.add_right_comm] at hrest
      cases first with
      | none => exact hrest
      | some first =>
        rw [take_succ_cons, pollFrom, pollFrom]
        rcases hc : first.check p.now (p.heartbeats i) (p.processStates i) with ⟨first', _ | _⟩
        · exact hrest
        · exact h

/-- The record of the service: it has yet to see the heartbeat, or has counted every interval since. -/
structure Watched (handle : ServiceHandle) (since beat : ℕ) (record : ServiceRecord) : Prop where
  handle_eq : record.handle = handle
  running : record.state = .running
  grace : record.startupGraceUntil = 0
  since_le : since ≤ record.lastHeartbeat
  count : record.lastHeartbeat < beat ∨ record.lastHeartbeat = max beat since + record.missedHeartbeats * heartbeatInterval ∧
    record.missedHeartbeats < missedHeartbeats

/-- **The check is exact** when it is in step. -/
theorem Watched.check {now : ℕ} (h : Watched handle since beat record) (hbeat : beat ≤ now) (hlast : record.lastHeartbeat ≤ now)
    (ht : record.InStep beat now) :
    let checked := record.check now beat (some .running)
    if deadline since beat ≤ now then checked.2 = true ∧ checked.1.handle = handle ∧ checked.1.state = .unhealthy
    else checked.2 = false ∧ Watched handle since beat checked.1 ∧ checked.1.lastHeartbeat ≤ now := by
  have hsince := h.since_le
  -- what the record holds once the heartbeat has been seen
  obtain ⟨seen, hseen, hw, hmax, hcount, hlt⟩ : ∃ seen, (if record.lastHeartbeat < beat then
      { record with lastHeartbeat := beat, missedHeartbeats := 0, startupGraceUntil := 0 } else record) = seen ∧
      Watched handle since beat seen ∧ seen.lastHeartbeat = max record.lastHeartbeat beat ∧
      seen.lastHeartbeat = max beat since + seen.missedHeartbeats * heartbeatInterval ∧ seen.missedHeartbeats < missedHeartbeats := by
    split_ifs with hnew
    · have hcount : beat = max beat since + 0 * heartbeatInterval := by omega
      exact ⟨_, rfl, ⟨h.handle_eq, h.running, rfl, hsince.trans hnew.le, .inr ⟨hcount, Nat.succ_pos _⟩⟩,
        (max_eq_right hnew.le).symm, hcount, Nat.succ_pos _⟩
    · exact ⟨_, rfl, h, by omega, h.count.resolve_left hnew⟩
  unfold ServiceRecord.InStep at ht
  rw [← hmax] at ht
  dsimp only [ServiceRecord.check]
  rw [hseen]
  simp only [h.running, hw.grace, Option.any_some, ne_eq, not_true_eq_false, decide_false, Bool.false_eq_true, if_false,
    Nat.not_lt_zero]
  split_ifs with hdue hfew hmany hfew hmany
  all_goals simp only [deadline, heartbeatInterval, missedHeartbeats] at *
  · omega
  · exact ⟨trivial, hw.handle_eq, trivial⟩
  · omega
  · exact ⟨trivial, hw, by omega⟩
  · omega
  · refine ⟨trivial, ⟨hw.handle_eq, hw.running, rfl, by dsimp only; omega, .inr ?_⟩, le_rfl⟩
    dsimp only [heartbeatInterval, missedHeartbeats]
    omega

/-- A poll that reports the service or should do so does both, and any other one leaves the service watched. -/
theorem Watched.poll {p : Poll} (h : Watched handle since beat record) (hrec : s.record? handle.index = some record)
    (hbeat : beat ≤ p.now) (hlast : record.lastHeartbeat ≤ p.now) (ht : record.InStep beat p.now) :
    polls handle since [.poll p] beat s = [(true, true)] ∨ polls handle since [.poll p] beat s = [(false, false)] ∧
      ∃ record', ((p.seeing handle.index beat).run s).2.record? handle.index = some record' ∧
        Watched handle since beat record' ∧ record'.lastHeartbeat ≤ p.now := by
  obtain ⟨q, hq, hnow, hseen, hprocess⟩ : ∃ q, p.seeing handle.index beat = q ∧ q.now = p.now ∧
      q.heartbeats handle.index = beat ∧ q.processStates handle.index = some .running :=
    ⟨_, rfl, rfl, update_self .., update_self ..⟩
  have hpoll := q.scan_slot (i := 0) (Option.join_eq_some_iff.mp hrec)
  have hcheck := h.check hbeat hlast ht
  rw [Nat.zero_add, hseen, hprocess] at hpoll
  have hrun : q.run s = ((q.scan 0 s.records).1, { s with records := (q.scan 0 s.records).2 }) := rfl
  simp only [polls, hq, hrun, record?]
  rw [← hnow] at hlast hcheck ⊢
  by_cases hlow : (q.scan 0 (s.records.take handle.index)).1 = none
  · rw [if_pos hlow] at hpoll
    by_cases hdue : deadline since beat ≤ q.now
    · rw [if_pos hdue] at hcheck
      simp [hpoll, hcheck, hlow, hdue]
    · rw [if_neg hdue] at hcheck
      simp [hpoll, hcheck, hdue, hcheck.2.1.running]
  · rw [if_neg hlow] at hpoll
    simp [hpoll, hlow, h, hlast, h.running]

/-! ## Runs -/

/-- The first poll that reports the service or should do so does both. -/
theorem Watched.polls (h : Watched handle since beat record) (hrec : s.record? handle.index = some record)
    (hbeat : beat ≤ clock) (hlast : record.lastHeartbeat ≤ clock) (ho : (clock :: events.map Event.tick).IsChain (· ≤ ·))
    (ht : Timely handle events beat s) :
    (polls handle since events beat s).find? (fun v => v.1 || v.2) ∈ [none, some (true, true)] := by
  induction events generalizing clock beat record s with
  | nil => exact mem_cons_self ..
  | cons event events ih =>
    obtain ⟨hle, ho⟩ := isChain_cons_cons.mp ho
    cases event with
    | beat tick =>
      have hle : record.lastHeartbeat ≤ tick := hlast.trans hle
      refine ih ⟨h.handle_eq, h.running, h.grace, h.since_le, ?_⟩ hrec le_rfl hle ho ht.2
      rcases ht.1 record hrec with h0 | hlt
      · -- a heartbeat of the tick that the record holds is as good as seen
        refine hle.lt_or_eq.imp_right fun heq => ⟨?_, h0 ▸ Nat.succ_pos _⟩
        rw [h0, Nat.zero_mul, Nat.add_zero, max_eq_left (heq ▸ h.since_le), heq]
      · exact .inl hlt
    | poll p =>
      have happ : Supervisor.polls handle since (.poll p :: events) beat s =
        Supervisor.polls handle since [.poll p] beat s ++ _ := rfl
      rw [happ]
      have hbeat := hbeat.trans hle
      obtain hboth | ⟨hneither, record', hrec', hw', hlast'⟩ := h.poll hrec hbeat (hlast.trans hle) (ht.1 record hrec)
      · rw [hboth]
        exact mem_cons_of_mem _ (mem_cons_self ..)
      · rw [hneither]
        exact ih hw' hrec' hbeat hlast' ho ht.2

lemma Steady.not_due (hs : Steady since events beat) {v : Bool × Bool} (hv : v ∈ polls handle since events beat s) : v.2 = false := by
  induction events generalizing beat s with
  | nil => cases hv
  | cons event events ih =>
    cases event with
    | beat tick => exact ih hs.2 hv
    | poll p =>
      rcases mem_cons.mp hv with rfl | hv
      · have hle := hs.1
        simp only [deadline, heartbeatInterval, missedHeartbeats] at hle ⊢
        exact decide_eq_false fun hdue => by omega
      · exact ih hs.2 hv

lemma ensure_spec (s : LiveSupervisor) (handle : ServiceHandle) (reserved : Bool) :
    (s.ensure handle reserved).2.startupGraceArmed = s.startupGraceArmed ∧
      ((s.ensure handle reserved).1 = true → handle.index < (s.ensure handle reserved).2.records.length) := by
  unfold ensure
  dsimp only
  split_ifs
  · exact ⟨rfl, nofun⟩
  · exact ⟨rfl, nofun⟩
  split <;> try split_ifs
  all_goals exact ⟨rfl, fun _ => by simp; omega⟩

variable {reserved : Bool} (ha : s.startupGraceArmed = false) (hr : (s.register handle since reserved).1 = true) (hbeat : beat ≤ since)

include ha hr hbeat

lemma Watched.register : ∃ record, (s.register handle since reserved).2.record? handle.index = some record ∧
    Watched handle since beat record ∧ record.lastHeartbeat = since := by
  have hspec := ensure_spec s handle reserved
  unfold LiveSupervisor.register at hr ⊢
  split at hr
  · cases hr
  next s' heq =>
  rw [heq] at hspec
  refine ⟨_, by rw [record?, getElem?_set_self (hspec.2 rfl)]; rfl, ⟨rfl, rfl, ?_, le_rfl, .inr ⟨?_, Nat.succ_pos _⟩⟩, rfl⟩
  · exact if_neg (by rw [hspec.1, ha]; exact Bool.false_ne_true)
  · dsimp only
    omega

/-- **Heartbeat supervision is exact** in a timely run: the first poll that reports the service is the first one with its deadline
over and no lower slot reported, and a service that beats in every interval is never reported. -/
theorem heartbeats_exact (ho : (since :: events.map Event.tick).IsChain (· ≤ ·))
    (ht : Timely handle events beat (s.register handle since reserved).2) :
    let run := polls handle since events beat (s.register handle since reserved).2
    run.find? (fun v => v.1 || v.2) ∈ [none, some (true, true)] ∧ (Steady since events beat → ∀ v ∈ run, v.1 = false) := by
  obtain ⟨record, hrec, hw, hlast⟩ := Watched.register ha hr hbeat
  have hfirst := hw.polls hrec hbeat hlast.le ho ht
  refine ⟨hfirst, fun hs v hv => ?_⟩
  rcases mem_cons.mp hfirst with hnone | hsome
  · have hneither := find?_eq_none.mp hnone v hv
    simp only [Bool.or_eq_true, not_or, Bool.not_eq_true] at hneither
    exact hneither.1
  · -- the first poll that reports would be due
    cases hs.not_due (mem_of_find?_eq_some (mem_singleton.mp hsome))

omit ha hr hbeat

theorem heartbeats_exact_silent :
    let run := polls ⟨2 ^ 32⟩ 0 [.poll ⟨300, fun _ => 0, fun _ => none⟩] 0 (LiveSupervisor.new.register ⟨2 ^ 32⟩ 0 true).2
    run = [(true, true)] ∧ run.find? (fun v => v.1 || v.2) ∈ [none, some (true, true)] :=
  ⟨by decide, And.left (heartbeats_exact rfl (by decide) le_rfl (by simp [Event.tick])
    (by exact ⟨fun record h => by cases h; exact Or.inr ⟨3, rfl⟩, trivial⟩))⟩

end LogOS.Kernel.Supervisor
