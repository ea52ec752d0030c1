import LogOS.Lib.Op
import LogOS.Lib.SlotTable
import LogOS.Abi

/-!
# Runtime events and event sets

The registry of events and of the sets a service waits on, with the three hardware sources that can be bound to an
event outside it.  All of it is the state `EventWorld`; `wakes` records the calls of `wake_event_set`, and `heap` the
answers the allocator gives to the reservations to come.
-/

namespace LogOS.Kernel

open Lib Abi

/-! ## Handles into tables -/

section Handles

variable {α : Type} {kind : HandleKind}

/-- What a handle leads to: the slot must be in the generation the handle carries. -/
def resolve (t : SlotTable α) (handle : Handle kind) : Option α := t.lookup handle.index handle.generation

/-- The handles of the values that `p` picks, in the order of their slots. -/
def handlesWhere (t : SlotTable α) (p : α → Bool) : List (Handle kind) :=
  t.zipIdx.filterMap fun (slot, index) =>
    match slot.value with
    | none => none
    | some value => if p value then Handle.new index slot.generation else none

/-- The generation of a slot just allocated. -/
def generationAt (t : SlotTable α) (index : ℕ) : ℕ := (t[index]?.map (·.generation)).getD 0

end Handles

/-! ## State -/

inductive HardwareEventSource where
  | network
  | keyboard
  | pointer
  deriving DecidableEq, Repr

/-- The three statics of a source: the bound event, the set it last joined, and whether the device has fired. -/
structure HardwareBinding where
  eventRaw : ℕ
  setRaw : ℕ
  pending : Bool
  deriving DecidableEq, Repr

def HardwareBinding.unbound : HardwareBinding := ⟨0, 0, false⟩

structure EventRecord where
  owner : ServiceHandle
  directoryFlags : ℕ
  signaled : Bool
  deriving DecidableEq, Repr

structure EventSetRecord where
  owner : ServiceHandle
  members : List EventHandle
  waiting : Bool
  invalidated : Bool
  deriving DecidableEq, Repr

inductive EventWait where
  | ready (event : EventHandle)
  | pending
  | timeout
  deriving DecidableEq, Repr

inductive EventError where
  | stale
  | unauthorized
  | capacity
  | duplicate
  | notMember
  | invalidDeadline
  | busy
  deriving DecidableEq, Repr

structure RuntimeEventRegistry where
  events : SlotTable EventRecord
  sets : SlotTable EventSetRecord
  generationSeed : ℕ

/-- The registry, the statics beside it, the wakes so far and the allocator's answers to come. -/
structure EventWorld where
  registry : RuntimeEventRegistry
  hardware : HardwareEventSource → HardwareBinding
  wakes : List EventSetHandle
  heap : List Bool

def noDeadline : ℕ := 2 ^ 64 - 1

def directoryEventFlagHardwareKeyboard : ℕ := 1
def directoryEventFlagHardwarePointer : ℕ := 2

def RuntimeEventRegistry.newWithGeneration (generation : UInt32) : RuntimeEventRegistry :=
  ⟨[], [], max generation.toNat 1⟩

/-- A registry just made, before any hardware source was bound. -/
def EventWorld.start (generation : UInt32) : EventWorld :=
  ⟨.newWithGeneration generation, fun _ => .unbound, [], []⟩

/-! ## Lookups -/

namespace RuntimeEventRegistry

def event (registry : RuntimeEventRegistry) (handle : EventHandle) : Except EventError EventRecord :=
  match resolve registry.events handle with
  | some record => .ok record
  | none => .error .stale

def set (registry : RuntimeEventRegistry) (handle : EventSetHandle) : Except EventError EventSetRecord :=
  match resolve registry.sets handle with
  | some record => .ok record
  | none => .error .stale

/-- `for_each_waiter`: the sets in which a waiter for `event` is published. -/
def waiters (registry : RuntimeEventRegistry) (event : EventHandle) : List EventSetHandle :=
  handlesWhere registry.sets fun record => record.waiting && record.members.contains event

def ownedEvents (registry : RuntimeEventRegistry) (owner : ServiceHandle) : List EventHandle :=
  handlesWhere registry.events fun record => record.owner == owner

def ownedSets (registry : RuntimeEventRegistry) (owner : ServiceHandle) : List EventSetHandle :=
  handlesWhere registry.sets fun record => record.owner == owner

/-- The sets that have `event` as a member. -/
def holders (registry : RuntimeEventRegistry) (event : EventHandle) : List EventSetHandle :=
  handlesWhere registry.sets fun record => record.members.contains event

end RuntimeEventRegistry

/-- A set after an event was destroyed: invalidated when it had the event as a member. -/
def EventSetRecord.without (event : EventHandle) (record : EventSetRecord) : EventSetRecord :=
  if record.members.contains event then
    { record with invalidated := true, waiting := false, members := record.members.filter (· ≠ event) }
  else { record with members := record.members.filter (· ≠ event) }

namespace EventWorld

/-! ## Hardware sources -/

def setHardware (w : EventWorld) (source : HardwareEventSource) (binding : HardwareBinding) : EventWorld :=
  { w with hardware := fun other => if other = source then binding else w.hardware other }

def bindHardwareEvent (source : HardwareEventSource) (event : EventHandle) (w : EventWorld) : EventWorld :=
  w.setHardware source ⟨event.raw, 0, false⟩

def clearHardwareEvent (source : HardwareEventSource) (w : EventWorld) : EventWorld :=
  w.setHardware source .unbound

def bindHardwareWaitSet (source : HardwareEventSource) (event : EventHandle) (set : EventSetHandle) (w : EventWorld) :
    EventWorld :=
  if (w.hardware source).eventRaw = event.raw then
    w.setHardware source { w.hardware source with setRaw := set.raw }
  else w

def unbindHardwareWaitSet (source : HardwareEventSource) (event : EventHandle) (set : EventSetHandle) (w : EventWorld) :
    EventWorld :=
  if (w.hardware source).eventRaw = event.raw ∧ (w.hardware source).setRaw = set.raw then
    w.setHardware source { w.hardware source with setRaw := 0 }
  else w

def bindAllHardwareWaitSets (event : EventHandle) (set : EventSetHandle) (w : EventWorld) : EventWorld :=
  w |> bindHardwareWaitSet .network event set |> bindHardwareWaitSet .keyboard event set
    |> bindHardwareWaitSet .pointer event set

def unbindAllHardwareWaitSets (event : EventHandle) (set : EventSetHandle) (w : EventWorld) : EventWorld :=
  w |> unbindHardwareWaitSet .network event set |> unbindHardwareWaitSet .keyboard event set
    |> unbindHardwareWaitSet .pointer event set

def hardwareEventIsPending (w : EventWorld) (event : EventHandle) : Bool :=
  [HardwareEventSource.network, .keyboard, .pointer].any fun source =>
    (w.hardware source).eventRaw == event.raw && (w.hardware source).pending

def consumeHardwareSource (event : EventHandle) (source : HardwareEventSource) (w : EventWorld) : EventWorld :=
  if (w.hardware source).eventRaw = event.raw then
    w.setHardware source { w.hardware source with pending := false }
  else w

def consumeHardwareEvent (event : EventHandle) (w : EventWorld) : EventWorld :=
  w |> consumeHardwareSource event .network |> consumeHardwareSource event .keyboard
    |> consumeHardwareSource event .pointer

def clearBoundSource (event : EventHandle) (source : HardwareEventSource) (w : EventWorld) : EventWorld :=
  if (w.hardware source).eventRaw = event.raw then w.clearHardwareEvent source else w

/-! ## Changes of the registry -/

def wakeEventSet (set : EventSetHandle) (w : EventWorld) : EventWorld := { w with wakes := w.wakes ++ [set] }

def wakeWaiters (event : EventHandle) (w : EventWorld) : EventWorld :=
  { w with wakes := w.wakes ++ w.registry.waiters event }

def setEvents (events : SlotTable EventRecord) (w : EventWorld) : EventWorld :=
  { w with registry := { w.registry with events := events } }

def setSets (sets : SlotTable EventSetRecord) (w : EventWorld) : EventWorld :=
  { w with registry := { w.registry with sets := sets } }

def setSignaled (event : EventHandle) (signaled : Bool) (w : EventWorld) : EventWorld :=
  w.setEvents (w.registry.events.update event.index fun record => { record with signaled := signaled })

def updateSet (set : EventSetHandle) (f : EventSetRecord → EventSetRecord) (w : EventWorld) : EventWorld :=
  w.setSets (w.registry.sets.update set.index f)

/-- The part of `destroy_event` after the wakes: the slot, the sets and the sources that knew the event.  The loop
over the sets leaves out a slot for which no handle exists; the sources are changed after it, as nothing in it reads
them. -/
def dropEvent (event : EventHandle) (w : EventWorld) : EventWorld :=
  let retired := w.setEvents (w.registry.events.retire event.index)
  let invalidated := retired.setSets (retired.registry.sets.updateAll fun index generation record =>
    if (Handle.new index generation : Option EventSetHandle).isSome then record.without event else record)
  (w.registry.holders event).foldl (fun w set => w.unbindAllHardwareWaitSets event set) invalidated
    |> clearBoundSource event .network |> clearBoundSource event .keyboard |> clearBoundSource event .pointer

/-- The first member that is signaled or whose device has fired. -/
def firstReady (w : EventWorld) : List EventHandle → Except EventError (Option EventHandle)
  | [] => .ok none
  | event :: rest => do
    let record ← w.registry.event event
    if record.signaled || w.hardwareEventIsPending event then .ok (some event) else w.firstReady rest

end EventWorld

/-! ## Operations -/

open EventWorld

/-- `try_reserve`: the allocator may refuse at any time, and a table of `2 ^ 32` slots, which would not fit the index
of a handle, is more than it ever grants. -/
def tryReserve {ε : Type} (length : ℕ) (error : ε) : Op EventWorld ε Unit := do
  let w ← Op.get
  Op.modify fun w => { w with heap := w.heap.tail }
  Op.guard (w.heap.headD true && decide (length < 2 ^ 32)) error

def allocateEventSlot : Op EventWorld EventError ℕ := do
  let w ← Op.get
  match w.registry.events.firstFree with
  | some index => return index
  | none =>
    tryReserve w.registry.events.length .capacity
    Op.modify fun w => w.setEvents (w.registry.events ++ [Slot.withGeneration w.registry.generationSeed])
    return w.registry.events.length

def allocateSetSlot : Op EventWorld EventError ℕ := do
  let w ← Op.get
  match w.registry.sets.firstFree with
  | some index => return index
  | none =>
    tryReserve w.registry.sets.length .capacity
    Op.modify fun w => w.setSets (w.registry.sets ++ [Slot.withGeneration w.registry.generationSeed])
    return w.registry.sets.length

def createEventWithFlags (owner : ServiceHandle) (directoryFlags : ℕ) : Op EventWorld EventError EventHandle := do
  Op.guard owner.isValid .unauthorized
  let index ← allocateEventSlot
  let w ← Op.get
  let handle ← Op.orFail (Handle.new index (generationAt w.registry.events index)) .capacity
  Op.modify fun w => w.setEvents (w.registry.events.store index ⟨owner, directoryFlags, false⟩)
  return handle

def createEvent (owner : ServiceHandle) : Op EventWorld EventError EventHandle := createEventWithFlags owner 0

def createHardwareEvent (owner : ServiceHandle) (source : HardwareEventSource) : Op EventWorld EventError EventHandle := do
  let flags := match source with
    | .network => 0
    | .keyboard => directoryEventFlagHardwareKeyboard
    | .pointer => directoryEventFlagHardwarePointer
  let event ← createEventWithFlags owner flags
  Op.modify (bindHardwareEvent source event)
  return event

def createSet (owner : ServiceHandle) : Op EventWorld EventError EventSetHandle := do
  Op.guard owner.isValid .unauthorized
  let index ← allocateSetSlot
  let w ← Op.get
  let handle ← Op.orFail (Handle.new index (generationAt w.registry.sets index)) .capacity
  Op.modify fun w => w.setSets (w.registry.sets.store index ⟨owner, [], false, false⟩)
  return handle

/-- The record of a set whose membership may be changed: owned by the caller, valid, and with no published waiter. -/
def openSet (owner : ServiceHandle) (set : EventSetHandle) : Op EventWorld EventError EventSetRecord := do
  let w ← Op.get
  let record ← Op.lift (w.registry.set set)
  Op.guard (record.owner == owner) .unauthorized
  Op.guard (!record.invalidated) .stale
  Op.guard (!record.waiting) .busy
  return record

def add (owner : ServiceHandle) (set : EventSetHandle) (event : EventHandle) : Op EventWorld EventError Unit := do
  let w ← Op.get
  let eventRecord ← Op.lift (w.registry.event event)
  Op.guard (eventRecord.owner == owner) .unauthorized
  let record ← openSet owner set
  Op.guard (!record.members.contains event) .duplicate
  tryReserve record.members.length .capacity
  Op.modify (updateSet set fun record => { record with members := record.members ++ [event] })
  Op.modify (bindAllHardwareWaitSets event set)

def remove (owner : ServiceHandle) (set : EventSetHandle) (event : EventHandle) : Op EventWorld EventError Unit := do
  let record ← openSet owner set
  Op.guard (record.members.contains event) .notMember
  Op.modify (updateSet set fun record => { record with members := record.members.erase event })
  Op.modify (unbindAllHardwareWaitSets event set)

def signalIrq (event : EventHandle) : Op EventWorld EventError Unit := do
  let w ← Op.get
  let _ ← Op.lift (w.registry.event event)
  Op.modify (setSignaled event true)
  Op.modify (wakeWaiters event)

def signal (owner : ServiceHandle) (event : EventHandle) : Op EventWorld EventError Unit := do
  let w ← Op.get
  let record ← Op.lift (w.registry.event event)
  Op.guard (record.owner == owner) .unauthorized
  Op.modify (setSignaled event true)
  Op.modify (wakeWaiters event)

def signalHardwareEvent (source : HardwareEventSource) : Op EventWorld EventError Unit := do
  let w ← Op.get
  if (w.hardware source).eventRaw = 0 then return ()
  else
    Op.modify fun w => w.setHardware source { w.hardware source with pending := true }
    match (Handle.fromRaw (w.hardware source).setRaw : Option EventSetHandle) with
    | some set => Op.modify (wakeEventSet set)
    | none => return ()

def waitAny (owner : ServiceHandle) (set : EventSetHandle) (now : ℕ) (deadline : Option ℕ) :
    Op EventWorld EventError EventWait := do
  let deadline := deadline.getD noDeadline
  Op.guard (!(deadline != noDeadline && decide (deadline < now))) .invalidDeadline
  let w ← Op.get
  let record ← Op.lift (w.registry.set set)
  Op.guard (record.owner == owner) .unauthorized
  Op.guard (!record.invalidated) .stale
  match ← Op.lift (w.firstReady record.members) with
  | some event =>
    Op.modify (setSignaled event false)
    Op.modify (consumeHardwareEvent event)
    Op.modify (updateSet set fun record => { record with waiting := false })
    return .ready event
  | none =>
    if deadline != noDeadline && decide (deadline ≤ now) then
      Op.modify (updateSet set fun record => { record with waiting := false })
      return .timeout
    else
      Op.modify (updateSet set fun record => { record with waiting := true })
      return .pending

def cancelWait (owner : ServiceHandle) (set : EventSetHandle) : Op EventWorld EventError Unit := do
  let w ← Op.get
  let record ← Op.lift (w.registry.set set)
  Op.guard (record.owner == owner) .unauthorized
  Op.guard (!record.invalidated) .stale
  Op.modify (updateSet set fun record => { record with waiting := false })
  if record.waiting then Op.modify (wakeEventSet set) else return ()

def destroyEvent (owner : ServiceHandle) (event : EventHandle) : Op EventWorld EventError Unit := do
  let w ← Op.get
  let record ← Op.lift (w.registry.event event)
  Op.guard (record.owner == owner) .unauthorized
  Op.modify (wakeWaiters event)
  Op.modify (dropEvent event)

def destroySet (owner : ServiceHandle) (set : EventSetHandle) : Op EventWorld EventError Unit := do
  let w ← Op.get
  let record ← Op.lift (w.registry.set set)
  Op.guard (record.owner == owner) .unauthorized
  if record.waiting then Op.modify (wakeEventSet set) else pure ()
  Op.modify fun w => record.members.foldl (fun w event => w.unbindAllHardwareWaitSets event set) w
  Op.modify fun w => w.setSets (w.registry.sets.retire set.index)

/-- `RuntimeEventRegistry::destroy_service`. -/
def destroyServiceEvents (owner : ServiceHandle) : Op EventWorld EventError Unit := do
  let w ← Op.get
  Op.forEach (fun event => do
    Op.modify (wakeWaiters event)
    let _ ← Op.attempt (destroyEvent owner event)
    return ()) (w.registry.ownedEvents owner)
  let w ← Op.get
  Op.forEach (fun set => do
    let w ← Op.get
    match w.registry.set set with
    | .ok record => if record.waiting then Op.modify (wakeEventSet set) else pure ()
    | .error _ => pure ()
    let _ ← Op.attempt (destroySet owner set)
    return ()) (w.registry.ownedSets owner)

end LogOS.Kernel
