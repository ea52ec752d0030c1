import Mathlib.Algebra.BigOperators.Group.List.Basic
import Mathlib.Data.List.FinRange
import LogOS.Lib.Interleaving

/-!
# The task slots of the scheduler

Every operation of `Scheduler` as the atomic loads, stores and compare-exchanges it makes.  A slot has one packed state
word, with the generation of the task, a flag for a wake that came while it ran, and its state; the other fields are
registers of their own, written before or after the word.  The loops around a compare-exchange are labels.
-/

namespace LogOS.Kernel.Scheduler

open Lib.Interleaving

/-! ## State words -/

def noDeadline : ℕ := 2 ^ 64 - 1

inductive TaskPhase where
  | vacant | initializing | runnable | running | blocked | completed | stopping
  deriving DecidableEq, Repr

/-- The packed word: the generation in bits 8 to 63, `WAKE_PENDING` in bit 4, the state in bits 0 to 3. -/
structure StateWord where
  generation : ℕ
  generation_lt : generation < 2 ^ 56
  wakePending : Bool
  state : TaskPhase
  deriving DecidableEq, Repr

def pack (generation : ℕ) (state : TaskPhase) : StateWord :=
  ⟨generation % 2 ^ 56, Nat.mod_lt _ (Nat.two_pow_pos 56), false, state⟩

/-- The word with the flag `WAKE_PENDING` set. -/
def StateWord.withWake (word : StateWord) : StateWord := { word with wakePending := true }

def nextGeneration (generation : ℕ) : ℕ :=
  let next := (generation % 2 ^ 56 + 1) % 2 ^ 56
  if next = 0 then 1 else next

structure TaskHandle where
  slot : ℕ
  generation : ℕ
  generation_lt : generation < 2 ^ 56
  deriving DecidableEq, Repr

/-! The words as the numbers that the source computes with. -/

def TaskPhase.code : TaskPhase → ℕ
  | .vacant => 0
  | .initializing => 1
  | .runnable => 2
  | .running => 3
  | .blocked => 4
  | .completed => 5
  | .stopping => 6

def StateWord.bits (word : StateWord) : ℕ :=
  word.generation * 2 ^ 8 + (if word.wakePending then 2 ^ 4 else 0) + word.state.code

lemma TaskPhase.code_lt (state : TaskPhase) : state.code < 2 ^ 4 := by
  cases state <;> decide

lemma TaskPhase.code_inj {a b : TaskPhase} (h : a.code = b.code) : a = b := by
  cases a <;> cases b <;> first | rfl | exact absurd h (by decide)

namespace StateWord

variable (word : StateWord)

lemma low_lt : (if word.wakePending then 2 ^ 4 else 0) + word.state.code < 2 ^ 8 := by
  have := word.state.code_lt
  split <;> omega

lemma bits_lt : word.bits < 2 ^ 64 := by
  have h1 := word.low_lt
  have h2 := word.generation_lt
  unfold bits
  omega

lemma bits_shiftRight : word.bits >>> 8 = word.generation := by
  have h := word.low_lt
  rw [bits]
  omega

lemma bits_and_mask : word.bits &&& 0x0f = word.state.code := by
  have h := word.state.code_lt
  rw [show (0x0f : ℕ) = 2 ^ 4 - 1 from rfl, Nat.and_two_pow_sub_one_eq_mod, bits]
  split <;> omega

lemma bits_and_wake : word.bits / 2 ^ 4 % 2 = if word.wakePending then 1 else 0 := by
  have h := word.state.code_lt
  rw [bits]
  split <;> omega

/-- A compare-exchange on the numbers is one on the words. -/
theorem bits_inj {a b : StateWord} (h : a.bits = b.bits) : a = b := by
  have hg : a.generation = b.generation := by rw [← bits_shiftRight, ← bits_shiftRight, h]
  have hs : a.state = b.state := TaskPhase.code_inj (by rw [← bits_and_mask, ← bits_and_mask, h])
  have hw : a.wakePending = b.wakePending := by
    have ha := bits_and_wake a
    have hb := bits_and_wake b
    rw [h, hb] at ha
    cases hpa : a.wakePending <;> cases hpb : b.wakePending <;> simp [hpa, hpb] at ha ⊢
  rcases a with ⟨ga, _, wa, sa⟩
  cases hg
  cases hs
  cases hw
  rfl

lemma bits_pack (generation : ℕ) (state : TaskPhase) :
    (pack generation state).bits = (generation % 2 ^ 56) * 2 ^ 8 + state.code := by
  simp [bits, pack]

end StateWord

/-! ## Registers -/

inductive Reg where
  | entry (i : Fin 24)
  | state (i : Fin 24)
  | wakeDeadline (i : Fin 24)
  | savedRsp (i : Fin 24)
  | contextSaved (i : Fin 24)
  | waitObject (i : Fin 24)
  | addressSpace (i : Fin 24)
  | process (i : Fin 24)
  | userEntry (i : Fin 24)
  | userStackTop (i : Fin 24)
  | addressSpacePublished (i : Fin 24)
  | online (cpu : Fin 8)
  | cursor (cpu : Fin 8)
  | currentSlot (cpu : Fin 8)
  | currentGeneration (cpu : Fin 8)
  | switches (cpu : Fin 8)
  | eventWakes
  deriving DecidableEq

def Val : Reg → Type
  | .state _ => StateWord
  | .contextSaved _ => Bool
  | .addressSpacePublished _ => Bool
  | .online _ => Bool
  | _ => ℕ

instance : ∀ r, DecidableEq (Val r)
  | .state _ => inferInstanceAs (DecidableEq StateWord)
  | .contextSaved _ | .addressSpacePublished _ | .online _ => inferInstanceAs (DecidableEq Bool)
  | .entry _ | .wakeDeadline _ | .savedRsp _ | .waitObject _ | .addressSpace _ | .process _ | .userEntry _ | .userStackTop _
  | .cursor _ | .currentSlot _ | .currentGeneration _ | .switches _ | .eventWakes => inferInstanceAs (DecidableEq ℕ)

/-- `Scheduler::new()`. -/
def new : (r : Reg) → Val r
  | .entry _ => (0 : ℕ)
  | .state _ => pack 1 .vacant
  | .wakeDeadline _ => noDeadline
  | .savedRsp _ => (0 : ℕ)
  | .contextSaved _ => false
  | .waitObject _ => (0 : ℕ)
  | .addressSpace _ => (0 : ℕ)
  | .process _ => (0 : ℕ)
  | .userEntry _ => (0 : ℕ)
  | .userStackTop _ => (0 : ℕ)
  | .addressSpacePublished _ => false
  | .online _ => false
  | .cursor _ => (0 : ℕ)
  | .currentSlot _ => (255 : ℕ)
  | .currentGeneration _ => (0 : ℕ)
  | .switches _ => (0 : ℕ)
  | .eventWakes => (0 : ℕ)

/-! ## Operations -/

inductive SpawnError where
  | capacity | addressSpace | userLaunch
  deriving DecidableEq, Repr

inductive FinishState where
  | runnable | blocked | timedBlocked | completed
  deriving DecidableEq, Repr

/-- The process handle of a loaded process, and the registers it starts with. -/
structure UserLaunch where
  process : ℕ
  entry : ℕ
  stackTop : ℕ
  deriving DecidableEq, Repr

inductive Call where
  | onlineCpu (cpu : ℕ)
  | spawn (entry addressSpace : ℕ) (launch : Option UserLaunch)
  | armDeadline (handle : TaskHandle) (deadline : ℕ)
  | waitForEventObject (handle : TaskHandle) (object deadline : ℕ)
  | signalEventObject (object : ℕ)
  | wakeDue (now : ℕ)
  | wake (handle : TaskHandle)
  | requestStop (handle : TaskHandle)
  | claimNext (cpu : ℕ)
  | saveContext (handle : TaskHandle) (savedRsp : ℕ)
  | finish (handle : TaskHandle) (outcome : FinishState)
  | reclaimCompleted (handle : TaskHandle)
  deriving DecidableEq

inductive Reply where
  | spawned (result : Except SpawnError TaskHandle)
  | claimed (handle : Option TaskHandle)
  | registered (result : Option Bool)
  | flag (result : Bool)
  | count (woken : ℕ)

/-- Where `wake` goes on: to its own caller, or to the rest of the slots that a signal looks at. -/
inductive WakeCaller where
  | self
  | signal (object : ℕ) (rest : List (Fin 24)) (woken : ℕ)

inductive Label where
  | wake (i : Fin 24) (generation : ℕ) (caller : WakeCaller)
  | requestStop (i : Fin 24) (generation : ℕ)
  | finish (i : Fin 24) (generation : ℕ) (outcome : FinishState)
  | signal (object : ℕ) (rest : List (Fin 24)) (woken : ℕ)

abbrev Program := Prog Reg Val Label Reply

/-- The operation on slot `handle.slot`, or its reply when there is no such slot. -/
def onSlot (handle : TaskHandle) (missing : Reply) (program : Fin 24 → Program) : Program :=
  if h : handle.slot < 24 then program ⟨handle.slot, h⟩ else .ret missing

def onlineCpu (cpu : ℕ) : Program :=
  if h : cpu < 8 then .store (.online ⟨cpu, h⟩) true <| .ret (.flag true) else .ret (.flag false)

/-- The fields of a slot that `spawn_internal` has reserved. -/
def initializeSlot (i : Fin 24) (entry addressSpace : ℕ) (launch : Option UserLaunch) (next : Program) : Program :=
  .store (.entry i) entry <|
  .store (.wakeDeadline i) noDeadline <|
  .store (.savedRsp i) (0 : ℕ) <|
  .store (.contextSaved i) false <|
  .store (.waitObject i) (0 : ℕ) <|
  .store (.addressSpace i) addressSpace <|
  .store (.addressSpacePublished i) (addressSpace != 0) <|
  .store (.process i) ((launch.map (·.process)).getD 0 : ℕ) <|
  .store (.userEntry i) ((launch.map (·.entry)).getD 0 : ℕ) <|
  .store (.userStackTop i) ((launch.map (·.stackTop)).getD 0 : ℕ) next

/-- The loop of `spawn_internal` over the slots that are left. -/
def spawnFrom (entry addressSpace : ℕ) (launch : Option UserLaunch) : List (Fin 24) → Program
  | [] => .ret (.spawned (.error .capacity))
  | i :: rest =>
    .load (.state i) fun (old : StateWord) =>
      if old.state ≠ .vacant then spawnFrom entry addressSpace launch rest
      else
        .cas (.state i) old (pack old.generation .initializing) fun reserved =>
          if reserved then
            initializeSlot i entry addressSpace launch <|
            .store (.state i) (pack old.generation .runnable) <|
            .ret (.spawned (.ok ⟨i, old.generation, old.generation_lt⟩))
          else spawnFrom entry addressSpace launch rest

def spawnInternal (entry addressSpace : ℕ) (launch : Option UserLaunch) : Program :=
  if addressSpace ≠ 0 ∧ addressSpace % 4096 ≠ 0 then .ret (.spawned (.error .addressSpace))
  else if launch.any (·.process == 0) then .ret (.spawned (.error .userLaunch))
  else spawnFrom entry addressSpace launch (List.finRange 24)

def armDeadline (handle : TaskHandle) (deadline : ℕ) : Program :=
  onSlot handle (.flag false) fun i =>
    .load (.state i) fun (word : StateWord) =>
      if word.generation ≠ handle.generation ∨ word.state ≠ .running then .ret (.flag false)
      else .store (.wakeDeadline i) deadline <| .ret (.flag true)

def waitForEventObject (handle : TaskHandle) (object deadline : ℕ) : Program :=
  if object = 0 then .ret (.registered none)
  else
    onSlot handle (.registered none) fun i =>
      .load (.state i) fun (word : StateWord) =>
        if word.generation ≠ handle.generation ∨ word.state ≠ .running then .ret (.registered none)
        else
          .store (.waitObject i) (0 : ℕ) <|
          .store (.wakeDeadline i) deadline <|
          .store (.waitObject i) object <|
          .ret (.registered (some true))

/-- The loop of `wake_due` over the slots that are left. -/
def wakeDueFrom (now : ℕ) : List (Fin 24) → ℕ → Program
  | [], woken => .ret (.count woken)
  | i :: rest, woken =>
    .load (.state i) fun (word : StateWord) =>
      if word.state ≠ .blocked then wakeDueFrom now rest woken
      else
        .load (.wakeDeadline i) fun (deadline : ℕ) =>
          if deadline = noDeadline ∨ deadline > now then wakeDueFrom now rest woken
          else
            .cas (.wakeDeadline i) deadline noDeadline fun taken =>
              if taken then
                .store (.waitObject i) (0 : ℕ) <|
                .cas (.state i) word (pack word.generation .runnable) fun done =>
                  wakeDueFrom now rest (if done then woken + 1 else woken)
              else wakeDueFrom now rest woken

/-- What `wake` does when it has its answer. -/
def wakeDone : WakeCaller → Bool → Program
  | .self, result => .ret (.flag result)
  | .signal object rest woken, true =>
    .fetch .eventWakes (fun (n : ℕ) => (n + 1) % 2 ^ 64) fun _ => .jump (.signal object rest (woken + 1))
  | .signal object rest woken, false => .jump (.signal object rest woken)

def wakeLoop (i : Fin 24) (generation : ℕ) (caller : WakeCaller) : Program :=
  .load (.state i) fun (old : StateWord) =>
    if old.generation ≠ generation then wakeDone caller false
    else
      match old.state with
      | .blocked =>
        .store (.wakeDeadline i) noDeadline <|
        .store (.waitObject i) (0 : ℕ) <|
        .cas (.state i) old (pack generation .runnable) fun done =>
          if done then wakeDone caller true else .jump (.wake i generation caller)
      | .running =>
        .store (.waitObject i) (0 : ℕ) <|
        if old.withWake = old then wakeDone caller true
        else
          .cas (.state i) old old.withWake fun done =>
            if done then wakeDone caller true else .jump (.wake i generation caller)
      | .runnable => .store (.waitObject i) (0 : ℕ) <| wakeDone caller true
      | _ => wakeDone caller false

/-- The loop of `signal_event_object` over the slots that are left. -/
def signalLoop (object : ℕ) : List (Fin 24) → ℕ → Program
  | [], woken => .ret (.count woken)
  | i :: rest, woken =>
    .load (.waitObject i) fun (waiting : ℕ) =>
      if waiting ≠ object then .jump (.signal object rest woken)
      else
        .load (.state i) fun (word : StateWord) =>
          if word.state = .blocked ∨ word.state = .running then
            .jump (.wake i word.generation (.signal object rest woken))
          else .jump (.signal object rest woken)

def stopLoop (i : Fin 24) (generation : ℕ) : Program :=
  .load (.state i) fun (old : StateWord) =>
    if old.generation ≠ generation then .ret (.flag false)
    else
      let retire (next : TaskPhase) : Program :=
        .store (.wakeDeadline i) noDeadline <|
        .store (.waitObject i) (0 : ℕ) <|
        .cas (.state i) old (pack generation next) fun done =>
          if done then .ret (.flag true) else .jump (.requestStop i generation)
      match old.state with
      | .running => retire .stopping
      | .runnable => retire .completed
      | .blocked => retire .completed
      | .stopping => .ret (.flag true)
      | .completed => .ret (.flag true)
      | _ => .ret (.flag false)

/-- The slots in the order in which a claim looks at them. -/
def claimOrder (start : ℕ) : List (Fin 24) := (List.finRange 24).map fun offset => Fin.ofNat 24 start + offset

/-- The loop of `claim_next` over the slots that are left. -/
def claimFrom (cpu : Fin 8) : List (Fin 24) → Program
  | [] => .ret (.claimed none)
  | i :: rest =>
    .load (.state i) fun (old : StateWord) =>
      if old.state ≠ .runnable then claimFrom cpu rest
      else
        .cas (.state i) old (pack old.generation .running) fun claimed =>
          if claimed then
            .store (.currentSlot cpu) i.val <|
            .store (.currentGeneration cpu) old.generation <|
            .fetch (.switches cpu) (fun (n : ℕ) => (n + 1) % 2 ^ 64) fun _ =>
              .ret (.claimed (some ⟨i, old.generation, old.generation_lt⟩))
          else claimFrom cpu rest

def claimNext (cpu : ℕ) : Program :=
  if h : cpu < 8 then
    .load (.online ⟨cpu, h⟩) fun (online : Bool) =>
      if online then
        .fetch (.cursor ⟨cpu, h⟩) (fun (n : ℕ) => (n + 1) % 2 ^ 64) fun (start : ℕ) => claimFrom ⟨cpu, h⟩ (claimOrder start)
      else .ret (.claimed none)
  else .ret (.claimed none)

def saveContext (handle : TaskHandle) (savedRsp : ℕ) : Program :=
  onSlot handle (.flag false) fun i =>
    .load (.state i) fun (word : StateWord) =>
      if word.generation ≠ handle.generation ∨ ¬ (word.state = .running ∨ word.state = .stopping) then .ret (.flag false)
      else
        .store (.savedRsp i) savedRsp <|
        .store (.contextSaved i) true <|
        .ret (.flag true)

/-- The state that `finish` leaves a task in. -/
def finishedState (outcome : FinishState) (old : StateWord) : TaskPhase :=
  if old.state = .stopping then .completed
  else
    match outcome with
    | .runnable => .runnable
    | .blocked => if old.wakePending then .runnable else .blocked
    | .timedBlocked => if old.wakePending then .runnable else .blocked
    | .completed => .completed

def finishLoop (i : Fin 24) (generation : ℕ) (outcome : FinishState) : Program :=
  .load (.state i) fun (old : StateWord) =>
    if old.generation ≠ generation ∨ ¬ (old.state = .running ∨ old.state = .stopping) then .ret (.flag false)
    else
      let next := finishedState outcome old
      let publish : Program := .cas (.state i) old (pack generation next) fun done =>
        if done then .ret (.flag true) else .jump (.finish i generation outcome)
      if next ≠ .blocked then .store (.waitObject i) (0 : ℕ) <| .store (.wakeDeadline i) noDeadline publish
      else if outcome = .blocked then .store (.wakeDeadline i) noDeadline publish
      else publish

def finish (handle : TaskHandle) (outcome : FinishState) : Program :=
  onSlot handle (.flag false) fun i =>
    .load (.contextSaved i) fun (saved : Bool) =>
      if saved then .jump (.finish i handle.generation outcome) else .ret (.flag false)

/-- The fields of a slot that `reclaim_completed` has reserved. -/
def clearSlot (i : Fin 24) (next : Program) : Program :=
  .store (.entry i) (0 : ℕ) <|
  .store (.addressSpace i) (0 : ℕ) <|
  .store (.process i) (0 : ℕ) <|
  .store (.userEntry i) (0 : ℕ) <|
  .store (.userStackTop i) (0 : ℕ) <|
  .store (.addressSpacePublished i) false <|
  .store (.wakeDeadline i) noDeadline <|
  .store (.waitObject i) (0 : ℕ) <|
  .store (.savedRsp i) (0 : ℕ) <|
  .store (.contextSaved i) false next

def reclaimCompleted (handle : TaskHandle) : Program :=
  onSlot handle (.flag false) fun i =>
    .cas (.state i) (pack handle.generation .completed) (pack handle.generation .initializing) fun reserved =>
      if reserved then
        clearSlot i <|
        .store (.state i) (pack (nextGeneration handle.generation) .vacant) <|
        .ret (.flag true)
      else .ret (.flag false)

/-- The programs of the operations. -/
def scheduler : Code Reg Val Label Call Reply where
  code
    | .onlineCpu cpu => onlineCpu cpu
    | .spawn entry addressSpace launch => spawnInternal entry addressSpace launch
    | .armDeadline handle deadline => armDeadline handle deadline
    | .waitForEventObject handle object deadline => waitForEventObject handle object deadline
    | .signalEventObject object => if object = 0 then .ret (.count 0) else .jump (.signal object (List.finRange 24) 0)
    | .wakeDue now => wakeDueFrom now (List.finRange 24) 0
    | .wake handle => onSlot handle (.flag false) fun i => .jump (.wake i handle.generation .self)
    | .requestStop handle => onSlot handle (.flag false) fun i => .jump (.requestStop i handle.generation)
    | .claimNext cpu => claimNext cpu
    | .saveContext handle savedRsp => saveContext handle savedRsp
    | .finish handle outcome => finish handle outcome
    | .reclaimCompleted handle => reclaimCompleted handle
  body
    | .wake i generation caller => wakeLoop i generation caller
    | .requestStop i generation => stopLoop i generation
    | .finish i generation outcome => finishLoop i generation outcome
    | .signal object rest woken => signalLoop object rest woken

end LogOS.Kernel.Scheduler
