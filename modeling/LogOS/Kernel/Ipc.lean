import LogOS.Kernel.Events

/-!
# The IPC registry

Endpoints with a private queue each, and the capabilities that give a service the use of one end.  A queue lies either
on the heap or in frames that the caller brought; `memory` holds the contents of the frames by their address.
-/

namespace LogOS.Kernel

open Lib Abi

/-! ## State -/

abbrev Message := List UInt8

structure FrameAddress where
  raw : ℕ
  deriving DecidableEq, Repr

inductive QueueStorage where
  | heap (queue : List Message)
  | frames (queue : List FrameAddress)
  deriving DecidableEq, Repr

structure EndpointRecord where
  handle : EndpointHandle
  producer : ServiceHandle
  consumer : ServiceHandle
  contractId : ℕ
  messageBytes : ℕ
  queueCapacity : ℕ
  serviceEpoch : ℕ
  readEvent : EventHandle
  writeEvent : EventHandle
  queue : QueueStorage
  queueHead : ℕ
  queueTail : ℕ
  queueLen : ℕ
  deriving DecidableEq, Repr

structure CapabilityRecord where
  handle : CapabilityHandle
  owner : ServiceHandle
  endpoint : EndpointHandle
  rights : IpcRights
  serviceEpoch : ℕ
  deriving DecidableEq, Repr

structure RuntimeIpcRegistry where
  endpoints : SlotTable EndpointRecord
  capabilities : SlotTable CapabilityRecord
  generationSeed : ℕ
  capabilityGeneration : ℕ
  queueBudgetMessages : ℕ
  queueCommittedMessages : ℕ

/-- The two registries and the frames that queues may lie in. -/
structure IpcWorld where
  ipc : RuntimeIpcRegistry
  events : EventWorld
  memory : ℕ → Message

def usizeMax : ℕ := 2 ^ 64 - 1

def RuntimeIpcRegistry.newWithGenerationAndBudget (generation : UInt32) (queueBudgetMessages : UInt64) :
    RuntimeIpcRegistry :=
  let generationSeed := max generation.toNat 1
  ⟨[], [], generationSeed, nextGeneration generationSeed, queueBudgetMessages.toNat, 0⟩

/-- Both registries just made, over frames with any contents. -/
def IpcWorld.start (generation eventGeneration : UInt32) (budget : UInt64) (memory : ℕ → Message) : IpcWorld :=
  ⟨.newWithGenerationAndBudget generation budget, .start eventGeneration, memory⟩

/-! ## Lookups -/

namespace RuntimeIpcRegistry

def endpoint (registry : RuntimeIpcRegistry) (handle : EndpointHandle) : Except IpcStatus EndpointRecord :=
  match resolve registry.endpoints handle with
  | some record => .ok record
  | none => .error .stale

def capability (registry : RuntimeIpcRegistry) (handle : CapabilityHandle) : Except IpcStatus CapabilityRecord :=
  match resolve registry.capabilities handle with
  | some record => .ok record
  | none => .error .stale

end RuntimeIpcRegistry

/-! ## Queues -/

/-- `bytes` copied over the front of a page. -/
def copyFront (bytes page : Message) : Message := bytes ++ page.drop bytes.length

namespace IpcWorld

def setEndpoints (endpoints : SlotTable EndpointRecord) (w : IpcWorld) : IpcWorld :=
  { w with ipc := { w.ipc with endpoints := endpoints } }

def setCapabilities (capabilities : SlotTable CapabilityRecord) (w : IpcWorld) : IpcWorld :=
  { w with ipc := { w.ipc with capabilities := capabilities } }

def setCommitted (committed : ℕ) (w : IpcWorld) : IpcWorld :=
  { w with ipc := { w.ipc with queueCommittedMessages := committed } }

def updateEndpoint (endpoint : EndpointHandle) (f : EndpointRecord → EndpointRecord) (w : IpcWorld) : IpcWorld :=
  w.setEndpoints (w.ipc.endpoints.update endpoint.index f)

def writeFrame (frame : FrameAddress) (bytes : Message) (w : IpcWorld) : IpcWorld :=
  { w with memory := fun raw => if raw = frame.raw then copyFront bytes (w.memory raw) else w.memory raw }

/-- The message in cell `index` of the queue of an endpoint. -/
def cell (w : IpcWorld) (record : EndpointRecord) (index : ℕ) : Option Message :=
  match record.queue with
  | .heap queue => queue[index]?.map (·.take record.messageBytes)
  | .frames queue => queue[index]?.map fun frame => (w.memory frame.raw).take record.messageBytes

/-- The message put in the cell behind the last of the queue. -/
def enqueue (endpoint : EndpointHandle) (record : EndpointRecord) (bytes : Message) (w : IpcWorld) : IpcWorld :=
  let index := record.queueTail
  let stored := match record.queue with
    | .heap queue =>
      w.updateEndpoint endpoint fun r => { r with queue := .heap (queue.modify index (copyFront bytes)) }
    | .frames queue =>
      match queue[index]? with
      | some frame => w.writeFrame frame bytes
      | none => w
  stored.updateEndpoint endpoint fun r =>
    { r with queueTail := (index + 1) % record.queueCapacity, queueLen := record.queueLen + 1 }

/-- The queue without its first message. -/
def dequeue (endpoint : EndpointHandle) (record : EndpointRecord) (w : IpcWorld) : IpcWorld :=
  w.updateEndpoint endpoint fun r =>
    { r with queueHead := (record.queueHead + 1) % record.queueCapacity, queueLen := record.queueLen - 1 }

end IpcWorld

/-! ## Operations -/

open IpcWorld

/-- An operation of the event registry. -/
def onEvents {ε α : Type} (m : Op EventWorld ε α) : Op IpcWorld ε α :=
  Op.zoom (·.events) (fun w events => { w with events := events }) m

def allocateEndpointSlot : Op IpcWorld IpcStatus ℕ := do
  let w ← Op.get
  match w.ipc.endpoints.firstFree with
  | some index => return index
  | none =>
    onEvents (tryReserve w.ipc.endpoints.length .disconnected)
    Op.modify fun w => w.setEndpoints (w.ipc.endpoints ++ [Slot.withGeneration w.ipc.generationSeed])
    return w.ipc.endpoints.length

def allocateCapabilityRecord : Op IpcWorld IpcStatus ℕ := do
  let w ← Op.get
  match w.ipc.capabilities.firstFree with
  | some index => return index
  | none =>
    onEvents (tryReserve w.ipc.capabilities.length .disconnected)
    Op.modify fun w => w.setCapabilities (w.ipc.capabilities ++ [Slot.withGeneration w.ipc.capabilityGeneration])
    return w.ipc.capabilities.length

/-- The parameters of a new endpoint. -/
structure EndpointRequest where
  producer : ServiceHandle
  consumer : ServiceHandle
  contractId : ℕ
  messageBytes : ℕ
  queueCapacity : ℕ
  serviceEpoch : ℕ
  deriving DecidableEq, Repr

def EndpointRequest.isMalformed (request : EndpointRequest) : Bool :=
  !request.producer.isValid || !request.consumer.isValid || request.producer == request.consumer
    || request.messageBytes == 0 || decide (request.messageBytes > ipcPageBytes)
    || request.queueCapacity == 0 || decide (request.queueCapacity > 2 ^ 16 - 1) || request.serviceEpoch == 0

/-- The two checks made before anything is allocated for an endpoint. -/
def checkRequest (request : EndpointRequest) : Op IpcWorld IpcStatus Unit := do
  Op.guard (!request.isMalformed) .malformed
  let w ← Op.get
  Op.guard (decide (request.queueCapacity ≤ w.ipc.queueBudgetMessages - w.ipc.queueCommittedMessages)) .full

/-- The event of the producer; when it cannot be made, that of the consumer is given up again. -/
def createWriteEvent (request : EndpointRequest) (readEvent : EventHandle) : Op IpcWorld IpcStatus EventHandle := do
  match ← Op.attempt (onEvents (createEvent request.producer)) with
  | .ok event => return event
  | .error error =>
    let _ ← Op.attempt (onEvents (destroyEvent request.consumer readEvent))
    Op.fail (if error = .unauthorized then .unauthorized else .disconnected)

def createEndpointWithQueue (request : EndpointRequest) (queue : QueueStorage) : Op IpcWorld IpcStatus EndpointHandle := do
  checkRequest request
  let slot ← allocateEndpointSlot
  let w ← Op.get
  let handle ← Op.orFail (Handle.new slot (generationAt w.ipc.endpoints slot)) .malformed
  let readEvent ← Op.mapErr (fun _ => IpcStatus.disconnected) (onEvents (createEvent request.consumer))
  let writeEvent ← createWriteEvent request readEvent
  Op.modify fun w => w.setEndpoints (w.ipc.endpoints.store slot
    { handle := handle, producer := request.producer, consumer := request.consumer, contractId := request.contractId,
      messageBytes := request.messageBytes, queueCapacity := request.queueCapacity,
      serviceEpoch := request.serviceEpoch, readEvent := readEvent, writeEvent := writeEvent, queue := queue,
      queueHead := 0, queueTail := 0, queueLen := 0 })
  Op.modify fun w => w.setCommitted (min (w.ipc.queueCommittedMessages + request.queueCapacity) usizeMax)
  return handle

def createEndpoint (request : EndpointRequest) : Op IpcWorld IpcStatus EndpointHandle := do
  checkRequest request
  onEvents (tryReserve request.queueCapacity .disconnected)
  createEndpointWithQueue request
    (.heap (List.replicate request.queueCapacity (List.replicate ipcPageBytes 0)))

def createEndpointWithFrames (request : EndpointRequest) (queueFrames : List FrameAddress) :
    Op IpcWorld IpcStatus EndpointHandle := do
  Op.guard (queueFrames.length == request.queueCapacity) .malformed
  onEvents (tryReserve request.queueCapacity .disconnected)
  createEndpointWithQueue request (.frames queueFrames)

def grant (owner : ServiceHandle) (endpoint : EndpointHandle) (rights : IpcRights) :
    Op IpcWorld IpcStatus CapabilityHandle := do
  let w ← Op.get
  let record ← Op.lift (w.ipc.endpoint endpoint)
  let ownsEndpoint := match rights with
    | .send => record.producer == owner
    | .receive => record.consumer == owner
  Op.guard ownsEndpoint .unauthorized
  let slot ← allocateCapabilityRecord
  let w ← Op.get
  let handle ← Op.orFail (Handle.new slot (generationAt w.ipc.capabilities slot)) .malformed
  Op.modify fun w => w.setCapabilities (w.ipc.capabilities.store slot
    { handle := handle, owner := owner, endpoint := endpoint, rights := rights, serviceEpoch := record.serviceEpoch })
  return handle

/-- The frames a destroyed queue lay in, for which room has to be reserved. -/
def takeQueueFrames : QueueStorage → Op IpcWorld IpcStatus (List FrameAddress)
  | .heap _ => pure []
  | .frames queue => onEvents (tryReserve queue.length IpcStatus.disconnected) >>= fun _ => pure queue

/-- The slot and the capabilities of an endpoint whose events are gone; nothing happens when the reservation is
refused. -/
def removeEndpoint (endpoint : EndpointHandle) (queue : QueueStorage) : Op IpcWorld IpcStatus (List FrameAddress) := do
  let queueFrames ← takeQueueFrames queue
  Op.modify fun w => w.setEndpoints (w.ipc.endpoints.retire endpoint.index)
  Op.modify fun w => w.setCapabilities (w.ipc.capabilities.retireAll fun grant => grant.endpoint == endpoint)
  return queueFrames

def destroyEndpointInner (endpoint : EndpointHandle) : Op IpcWorld IpcStatus (List FrameAddress) := do
  let w ← Op.get
  let record ← Op.lift (w.ipc.endpoint endpoint)
  Op.modify fun w => w.setCommitted (w.ipc.queueCommittedMessages - record.queueCapacity)
  let _ ← Op.attempt (onEvents (destroyEvent record.consumer record.readEvent))
  let _ ← Op.attempt (onEvents (destroyEvent record.producer record.writeEvent))
  removeEndpoint endpoint record.queue

def destroyEndpoint (endpoint : EndpointHandle) : Op IpcWorld IpcStatus Unit := do
  let _ ← destroyEndpointInner endpoint
  return ()

/-- The endpoints with `service` at one of their ends. -/
def RuntimeIpcRegistry.endpointsOf (registry : RuntimeIpcRegistry) (service : ServiceHandle) : List EndpointHandle :=
  (registry.endpoints.values.filter fun record => record.producer == service || record.consumer == service).map (·.handle)

/-- `destroy_service_inner` without a pool for the frames. -/
def destroyService (service : ServiceHandle) : Op IpcWorld IpcStatus Unit := do
  let w ← Op.get
  Op.forEach (fun endpoint => do
    let _ ← (Op.attempt (destroyEndpoint endpoint) : Op IpcWorld IpcStatus _)
    return ()) (w.ipc.endpointsOf service)
  Op.modify fun w => w.setCapabilities (w.ipc.capabilities.retireAll fun grant => grant.owner == service)
  Op.mapErr (fun _ => IpcStatus.disconnected) (onEvents (destroyServiceEvents service))

/-- The endpoint that a capability opens for the caller, with the checks `send` and `receive` share. -/
def openEndpoint (caller : ServiceHandle) (capability : CapabilityHandle) (rights : IpcRights) (length : ℕ) :
    Op IpcWorld IpcStatus (EndpointHandle × EndpointRecord) := do
  let w ← Op.get
  let grant ← Op.lift (w.ipc.capability capability)
  Op.guard (grant.owner == caller && grant.rights == rights) .unauthorized
  let record ← Op.lift (w.ipc.endpoint grant.endpoint)
  Op.guard (grant.serviceEpoch == record.serviceEpoch) .stale
  Op.guard (length == record.messageBytes) .malformed
  return (grant.endpoint, record)

/-- Returning is the status `Ok`, failing any other status. -/
def send (caller : ServiceHandle) (capability : CapabilityHandle) (bytes : Message) : Op IpcWorld IpcStatus Unit := do
  let (endpoint, record) ← openEndpoint caller capability .send bytes.length
  Op.guard (decide (record.queueLen < record.queueCapacity)) .full
  Op.modify (enqueue endpoint record bytes)
  let _ ← Op.attempt (onEvents (signalIrq record.readEvent))
  return ()

/-- The message copied to a buffer of the given length, when the status is `Ok`. -/
def receive (caller : ServiceHandle) (capability : CapabilityHandle) (length : ℕ) : Op IpcWorld IpcStatus Message := do
  let (endpoint, record) ← openEndpoint caller capability .receive length
  Op.guard (record.queueLen != 0) .empty
  let w ← Op.get
  Op.modify (dequeue endpoint record)
  let _ ← Op.attempt (onEvents (signalIrq record.writeEvent))
  return (w.cell record record.queueHead).getD []

end LogOS.Kernel
