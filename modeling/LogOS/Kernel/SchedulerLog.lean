import LogOS.Kernel.Scheduler

/-!
# What a run of the scheduler promises

A run is read off its log.  A task is claimed by the compare-exchange that takes its word from `RUNNABLE` to `RUNNING`, and
finished by the one that takes it from `RUNNING` or `STOPPING` to anything else but `STOPPING`; the holder of a task is the
thread that claimed it and has not finished it.  The log has its newest entry first, so in `newer ++ e :: older` the
entries of `older` came before `e`.
-/

namespace LogOS.Kernel.Scheduler

open Lib.Interleaving

variable {T : Type} [DecidableEq T]

abbrev Memory := (r : Reg) → Val r

abbrev LogEntry (T : Type) := Entry T Reg Val Call Reply

abbrev State (T : Type) := Shared T Reg Val Call Reply

abbrev Machine (T : Type) := System T Reg Val Label Call Reply

/-- The state word of a slot. -/
def word (m : Memory) (i : Fin 24) : StateWord := m (.state i)

/-! ## Claims and finishes -/

/-- A read-modify-write step that changed a state word: the slot, the word before and the word after. -/
def swapped : LogEntry T → Option (Fin 24 × StateWord × StateWord)
  | .did _ _ (.swap (.state i) old new) => some (i, old, new)
  | .did _ _ (.fetch (.state i) old new) => some (i, old, new)
  | _ => none

/-- A plain store to a state word. -/
def stored : LogEntry T → Option (Fin 24 × StateWord)
  | .did _ _ (.store (.state i) new) => some (i, new)
  | _ => none

/-- The task in slot `i` of which `old` is the state word. -/
def taskAt (i : Fin 24) (old : StateWord) : TaskHandle := ⟨i, old.generation, old.generation_lt⟩

def claims (e : LogEntry T) : Option TaskHandle :=
  match swapped e with
  | some (i, old, new) => if old.state = .runnable ∧ new.state = .running then some (taskAt i old) else none
  | none => none

def finishes (e : LogEntry T) : Option TaskHandle :=
  match swapped e with
  | some (i, old, new) =>
    if (old.state = .running ∨ old.state = .stopping) ∧ new.state ≠ .running ∧ new.state ≠ .stopping then
      some (taskAt i old)
    else none
  | none => none

/-- The thread that claimed the task and has not finished it. -/
def holder (h : TaskHandle) : List (LogEntry T) → Option T
  | [] => none
  | e :: log =>
    if claims e = some h then some e.thread
    else if finishes e = some h then none
    else holder h log

/-! ## The discipline of the threads -/

/-- The thread has claimed the task and has not begun `finish` on it. -/
def unfinished (t : T) (h : TaskHandle) : List (LogEntry T) → Bool
  | [] => false
  | e :: log =>
    if claims e = some h ∧ e.thread = t then true
    else
      match e with
      | .called u (.finish k _) => if u = t ∧ k = h then false else unfinished t h log
      | _ => unfinished t h log

/-- The thread has claimed the task and has not begun `save_context` on it. -/
def unsaved (t : T) (h : TaskHandle) : List (LogEntry T) → Bool
  | [] => false
  | e :: log =>
    if claims e = some h ∧ e.thread = t then true
    else
      match e with
      | .called u (.saveContext k _) => if u = t ∧ k = h then false else unsaved t h log
      | _ => unsaved t h log

/-- `save_context` has returned to the thread since it claimed the task. -/
def saved (t : T) (h : TaskHandle) : List (LogEntry T) → Bool
  | [] => false
  | e :: log =>
    if claims e = some h ∧ e.thread = t then false
    else
      match e with
      | .returned u (.saveContext k _) (.flag true) => if u = t ∧ k = h then true else saved t h log
      | _ => saved t h log

def stopped (h : TaskHandle) (log : List (LogEntry T)) : Prop := ∃ t, .returned t (.requestStop h) (.flag true) ∈ log

def reclaimed (h : TaskHandle) (log : List (LogEntry T)) : Prop := ∃ t, .returned t (.reclaimCompleted h) (.flag true) ∈ log

/-- The log as it was when the thread began its last call. -/
def callLog (t : T) : List (LogEntry T) → List (LogEntry T)
  | [] => []
  | .called u _ :: log => if u = t then log else callLog t log
  | .did _ _ _ :: log => callLog t log
  | .returned _ _ _ :: log => callLog t log

/-- The handle an operation is called with. -/
def Call.handle? : Call → Option TaskHandle
  | .armDeadline h _ => some h
  | .waitForEventObject h _ _ => some h
  | .wake h => some h
  | .requestStop h => some h
  | .saveContext h _ => some h
  | .finish h _ => some h
  | .reclaimCompleted h => some h
  | _ => none

def Reply.succeeded : Reply → Bool
  | .flag result => result
  | .registered result => result.isSome
  | _ => false

/-! ## Registrations and clears -/

/-- What a waiting task can be woken by. -/
structure Registration where
  object : Option ℕ
  deadline : ℕ
  deriving DecidableEq

/-- A registration that took place. -/
def registers : LogEntry T → Option (TaskHandle × Registration)
  | .returned _ (.waitForEventObject h object deadline) (.registered (some true)) => some (h, ⟨some object, deadline⟩)
  | .returned _ (.armDeadline h deadline) (.flag true) => some (h, ⟨none, deadline⟩)
  | _ => none

/-- A registration that begins. -/
def registering : LogEntry T → Option TaskHandle
  | .called _ (.waitForEventObject h _ _) => some h
  | .called _ (.armDeadline h _) => some h
  | _ => none

/-- The last registration of the task since it was claimed. -/
def registration (h : TaskHandle) : List (LogEntry T) → Option Registration
  | [] => none
  | e :: log =>
    if claims e = some h ∨ registering e = some h then none
    else
      match registers e with
      | some (k, r) => if k = h then some r else registration h log
      | none => registration h log

/-- The outcome with which `finish` was begun on the task since it was claimed. -/
def outcome (h : TaskHandle) : List (LogEntry T) → Option FinishState
  | [] => none
  | e :: log =>
    if claims e = some h then none
    else
      match e with
      | .called _ (.finish k o) => if k = h then some o else outcome h log
      | _ => outcome h log

/-- The outcomes that end a registration in a wait. -/
def Waits (r : Registration) : FinishState → Prop
  | .timedBlocked => True
  | .blocked => r.deadline = noDeadline
  | _ => False

/-- The registration is still in the fields of the slot. -/
def Registered (m : Memory) (i : Fin 24) (r : Registration) : Prop :=
  (∃ object, r.object = some object ∧ m (.waitObject i) = object) ∨
    (m (.wakeDeadline i) = r.deadline ∧ (r.deadline ≠ noDeadline ∨ r.object = none))

/-- The operations that wake or stop tasks. -/
def Call.rouses : Call → Bool
  | .wake _ => true
  | .signalEventObject _ => true
  | .wakeDue _ => true
  | .requestStop _ => true
  | _ => false

/-- The slot of which a step writes `wait_object` or `wake_deadline`. -/
def waitField (a : Action Reg Val) : Option (Fin 24) :=
  match a.writes with
  | some (.waitObject i) => some i
  | some (.wakeDeadline i) => some i
  | _ => none

/-- A step by which such an operation clears `wait_object` or `wake_deadline` of a slot. -/
def clears : LogEntry T → Option (Fin 24)
  | .did _ c a => if c.rouses then waitField a else none
  | _ => none

/-- The last state word that the thread loaded from the slot. -/
def lastLoad (t : T) (i : Fin 24) : List (LogEntry T) → Option StateWord
  | [] => none
  | .did u _ (.load (.state k) w) :: log => if u = t ∧ k = i then some w else lastLoad t i log
  | _ :: log => lastLoad t i log

/-- A step by which a wake took effect, with the task it woke: a compare-exchange, or the last store when the word that
was loaded needs none. -/
def wakes (log : List (LogEntry T)) (e : LogEntry T) : Option TaskHandle :=
  match e with
  | .did _ _ (.swap (.state i) old new) =>
    wakeSwap i old new
  | .did t c (.store (.waitObject i) _) =>
    match c.rouses, lastLoad t i log with
    | true, some w => if w.state = .runnable ∨ w.wakePending then some (taskAt i w) else none
    | _, _ => none
  | _ => none
where
  /-- A compare-exchange that sets the flag or makes a blocked task runnable. -/
  wakeSwap (i : Fin 24) (old new : StateWord) : Option TaskHandle :=
    if (old.state = .running ∧ new = old.withWake) ∨ (old.state = .blocked ∧ new.state = .runnable) then
      some (taskAt i old)
    else none

/-! ## The promises -/

/-- **A task runs on one thread at a time.** -/
structure RunsOnOneCpu (log : List (LogEntry T)) : Prop where
  exclusive : ∀ newer mid older e e' h, log = newer ++ e' :: (mid ++ e :: older) → claims e = some h →
    claims e' = some h → ∃ f ∈ mid, finishes f = some h ∧ f.thread = e.thread
  stops : ∀ newer mid older t e h,
    log = newer ++ e :: (mid ++ .returned t (.requestStop h) (.flag true) :: older) → claims e ≠ some h
  requeues : ∀ newer mid older e f h, log = newer ++ f :: (mid ++ e :: older) → claims e = some h →
    finishes f = some h → (∀ g ∈ mid, claims g ≠ some h) →
    ∃ rsp, .returned e.thread (.saveContext h rsp) (.flag true) ∈ mid
  retires : ∀ newer mid between older t u c h reply,
    log = newer ++ .returned t c reply :: (mid ++ .called t c ::
      (between ++ .returned u (.reclaimCompleted h) (.flag true) :: older)) →
    (∀ c', .called t c' ∉ mid) → c.handle? = some h → reply.succeeded = false

/-- **No wakeup is lost.** -/
structure NoLostWakeup (s : Machine T) : Prop where
  waiting : ∀ i r o, (word s.shared.mem i).state = .blocked →
    registration (taskAt i (word s.shared.mem i)) s.shared.log = some r →
    outcome (taskAt i (word s.shared.mem i)) s.shared.log = some o → Waits r o →
    Registered s.shared.mem i r ∨
      ∃ t c p n, s.thread t = some (c, p) ∧ (word (Prog.alone scheduler n p s.shared.mem) i).state ≠ .blocked
  woken : ∀ newer mid older e d h r, s.shared.log = newer ++ e :: (mid ++ d :: older) → registers d = some (h, r) →
    wakes (mid ++ d :: older) e = some h → (∀ g ∈ newer ++ e :: mid, claims g ≠ some h) →
    ∀ i, taskAt i (word s.shared.mem i) = h → (word s.shared.mem i).state ≠ .blocked
  stale : ∀ newer older e i w, s.shared.log = newer ++ e :: older → clears e = some i →
    lastLoad e.thread i older = some w → ¬ reclaimed (taskAt i w) older

/-! ## The rules -/

/-- What the clients of the scheduler keep to: only the thread that claimed a task saves its context, registers its waits
and finishes it, the first and the last once; and generations do not wrap around. -/
def MayCall (s : State T) (t : T) : Call → Prop
  | .finish h _ => unfinished t h s.log = true
  | .saveContext h _ => unsaved t h s.log = true
  | .armDeadline h _ => unfinished t h s.log = true
  | .waitForEventObject h _ _ => unfinished t h s.log = true
  | .reclaimCompleted h => h.generation + 1 < 2 ^ 56
  | _ => True

/-- `finish` is begun only on a task whose context was saved since it was claimed, or never before. -/
def SavesFirst (s : State T) (t : T) : Call → Prop
  | .finish h _ => saved t h s.log = true ∨ ∀ i : Fin 24, i.val = h.slot → s.mem (.contextSaved i) = false
  | _ => True

/-- An operation clears the fields of a slot only while the slot has the state word that the operation loaded. -/
def ClearsCurrent (s : State T) (t : T) (c : Call) (a : Action Reg Val) : Prop :=
  ∀ i, clears (.did t c a : LogEntry T) = some i → lastLoad t i s.log = some (word s.mem i)

/-- The rules of a run, with the two disciplines if they are asked for. -/
def rules (σ ω : Prop) : Rules T Reg Val Call Reply where
  mayCall s t c := MayCall s t c ∧ (σ → SavesFirst s t c)
  mayAct s t c a := ω → ClearsCurrent s t c a

end LogOS.Kernel.Scheduler
