import LogOS.Abi
import LogOS.Storage.Catalog.Format
import Mathlib.Logic.Function.Basic

/-!
# The block store behind the kernel

The storage service reads and writes blocks by messages to the kernel, one block at a time through a staging page, and
keeps 32 blocks in cache pages.  A stretch of cache pages can be pinned and handed to a client.  The cache is filled by
two routines: `reserve_cache_slot` looks for the block first and takes the next slot that is not pinned, while the mapping
window loader takes the first stretch of slots that are not pinned and never looks whether the block sits elsewhere.

The transport is a parameter.  What is assumed of one that answers every request faithfully is `FaithfulIpc`: it may keep
the service waiting for any number of polls within the limit.
-/

namespace LogOS.StorageService

open Lib Abi Storage Storage.Catalog

def cacheSlots : ℕ := storageCachePages
def cacheMapMaxPages : ℕ := 16
def responsePollLimit : ℕ := 64

/-! ## The transport -/

/-- The right to send block requests; one of generation or epoch zero cannot be made. -/
structure StorageCapability where
  handle : ℕ
  generation : ℕ
  serviceEpoch : ℕ
  generation_ne : generation ≠ 0
  epoch_ne : serviceEpoch ≠ 0
  deriving DecidableEq

/-- The kernel's side, with the staging page as a second part of its state. -/
class KernelStorageIpc (T : Type) where
  send : StorageCapability → StorageRequest → T × Block → IpcStatus × T × Block
  receive : StorageCapability → StorageResponse → T × Block → IpcStatus × StorageResponse × T × Block
  waitForResponse : T → T

def mapIpcStatus : IpcStatus → Except BlockError Unit
  | .ok => .ok ()
  | .unauthorized => .error .unauthorized
  | .stale => .error .stale
  | .disconnected => .error .stale
  | .full => .error .io
  | .empty => .error .responseTimeout
  | .malformed => .error .invalidRequest

def mapStorageStatus : StorageStatus → Except BlockError Unit
  | .ok => .ok ()
  | .io => .error .io
  | .outOfBounds => .error .outOfBounds
  | .readOnly => .error .readOnly
  | .unauthorized => .error .unauthorized
  | .stale => .error .stale
  | .invalid | .full | .recovery | .unsupported => .error .invalidRequest

section Transport

variable {T : Type} [KernelStorageIpc T]

/-- The poll loop: at most `n` more receives, until one of them is not empty. -/
def poll (capability : StorageCapability) :
    ℕ → StorageResponse → T × Block → IpcStatus × StorageResponse × T × Block
  | 0, response, t => (.empty, response, t)
  | n + 1, response, t =>
    let received := KernelStorageIpc.receive capability response t
    if received.1 ≠ .empty then received
    else poll capability n received.2.1 (KernelStorageIpc.waitForResponse received.2.2.1, received.2.2.2)

end Transport

/-- The answer to a request that was carried out. -/
def answerTo (request : StorageRequest) : StorageResponse :=
  .new request.requestId .ok request.generation (if request.isBlockIo then 1 else 0)
    (if request.isBlockIo then blockBytes else 0) request.transactionId

/-- What a request does to the disk when `staging` is in the staging page. -/
def effectOf (request : StorageRequest) (staging : Block) (disk : ℕ → Block) : ℕ → Block :=
  if request.operation = .write then Function.update disk request.startBlock staging else disk

/-- A request under the capability, for one of the first `n` blocks if it is for a block. -/
structure Asks (capability : StorageCapability) (n : ℕ) (request : StorageRequest) : Prop where
  generation : request.generation = capability.generation
  epoch : request.serviceEpoch = capability.serviceEpoch
  bound : request.isBlockIo → request.startBlock < n

/-- A transport that answers every request faithfully, within the number of polls the service waits for. -/
class FaithfulIpc (T : Type) [KernelStorageIpc T] where
  /-- The content of the disk. -/
  disk : T → ℕ → Block
  /-- The transport is waiting for a request under the capability, for one of the first `n` blocks. -/
  Serves : T → StorageCapability → ℕ → Prop
  send_ok : ∀ {t : T} {capability : StorageCapability} {n : ℕ} {request : StorageRequest} (staging : Block),
    Serves t capability n → Asks capability n request →
      (KernelStorageIpc.send capability request (t, staging)).1 = .ok
  answers : ∀ {t : T} {capability : StorageCapability} {n : ℕ} {request : StorageRequest} (staging : Block)
    (response : StorageResponse), Serves t capability n → Asks capability n request →
      ∃ count t' staging', poll capability responsePollLimit response
          (KernelStorageIpc.send capability request (t, staging)).2 =
          (.ok, { answerTo request with blockCount := count }, t', staging') ∧
        Serves t' capability n ∧ disk t' = effectOf request staging (disk t) ∧
        (request.operation = .read → staging' = disk t request.startBlock)

export FaithfulIpc (disk)

/-! ## The store -/

structure CacheSlot where
  block : ℕ
  valid : Bool
  deriving DecidableEq

/-- The store, and the memory of the cache pages. -/
structure IpcBlockStore (T : Type) where
  transport : T
  capability : StorageCapability
  generation : ℕ
  serviceEpoch : ℕ
  blocks : ℕ
  nextRequest : ℕ
  staging : Block
  cache : ℕ → CacheSlot
  pinCount : ℕ → ℕ
  nextCacheSlot : ℕ
  pages : ℕ → Block

namespace IpcBlockStore

variable {T : Type}

def new (transport : T) (capability : StorageCapability) (blocks : ℕ) (pages : ℕ → Block) :
    Except BlockError (IpcBlockStore T) :=
  if blocks = 0 then .error .invalidRequest
  else .ok {
    transport
    capability
    generation := capability.generation
    serviceEpoch := capability.serviceEpoch
    blocks
    nextRequest := 1
    staging := Block.zero
    cache := fun _ => ⟨0, false⟩
    pinCount := fun _ => 0
    nextCacheSlot := 0
    pages }

def cachedSlot (s : IpcBlockStore T) (block : ℕ) : Option ℕ :=
  (List.range cacheSlots).find? fun slot => (s.cache slot).valid && (s.cache slot).block == block

/-- The next slot that is not pinned, in the order of `next_cache_slot`. -/
def unpinnedSlot (s : IpcBlockStore T) : Option ℕ :=
  ((List.range cacheSlots).map fun offset => (s.nextCacheSlot + offset) % cacheSlots).find? fun slot => s.pinCount slot == 0

def reserveCacheSlot (block : ℕ) : Op (IpcBlockStore T) BlockError ℕ := fun s =>
  match s.cachedSlot block with
  | some slot => (.ok slot, s)
  | none =>
    match s.unpinnedSlot with
    | some slot => (.ok slot, { s with
        nextCacheSlot := (slot + 1) % cacheSlots
        cache := Function.update s.cache slot ⟨block, true⟩ })
    | none => (.error .invalidRequest, s)

def copyCacheFrom (slot : ℕ) (input : Block) (s : IpcBlockStore T) : IpcBlockStore T :=
  { s with pages := Function.update s.pages slot input }

def copyCacheTo (s : IpcBlockStore T) (slot : ℕ) : Block := s.pages slot

/-- The end of a read and of a write: the block is put into its slot, if it has or gets one. -/
def fillCache (block : ℕ) (input : Block) : Op (IpcBlockStore T) BlockError Unit := do
  match ← Op.attempt (reserveCacheSlot block) with
  | .ok slot => Op.modify (copyCacheFrom slot input)
  | .error _ => Op.ret ()

def request (operation : StorageOperation) (blocks payloadBytes : ℕ) : Op (IpcBlockStore T) BlockError StorageRequest := do
  let s ← Op.get
  Op.modify fun s => { s with nextRequest := max ((s.nextRequest + 1) % 2 ^ 32) 1 }
  Op.orFail (StorageRequest.new operation s.nextRequest s.generation s.serviceEpoch 0 blocks payloadBytes 0) .invalidRequest

section Store

variable [KernelStorageIpc T]

def roundTrip (request : StorageRequest) : Op (IpcBlockStore T) BlockError StorageResponse := do
  let s ← Op.get
  let sent := KernelStorageIpc.send s.capability request (s.transport, s.staging)
  Op.modify fun s => { s with transport := sent.2.1, staging := sent.2.2 }
  Op.lift (mapIpcStatus sent.1)
  let received := poll s.capability responsePollLimit
    (.new request.requestId .invalid request.generation 0 0 request.transactionId) sent.2
  Op.modify fun s => { s with transport := received.2.2.1, staging := received.2.2.2 }
  Op.lift (mapIpcStatus received.1)
  let response := received.2.1
  Op.guard (response.reserved == 0 && response.requestId == request.requestId &&
    response.generation == request.generation && response.transactionId == request.transactionId) .invalidRequest
  Op.guard (!(response.status == .ok && (response.blocksCompleted != (if request.isBlockIo then 1 else 0) ||
    response.payloadBytes != if request.isBlockIo then blockBytes else 0))) .invalidRequest
  Op.lift (mapStorageStatus response.status)
  Op.ret response

/-- The request for one block, sent and answered. -/
def blockRequest (operation : StorageOperation) (index : ℕ) : Op (IpcBlockStore T) BlockError Unit := do
  let request ← request operation 1 blockBytes
  let _ ← roundTrip { request with startBlock := index }
  Op.ret ()

def loadCacheSlot (block slot : ℕ) : Op (IpcBlockStore T) BlockError Unit := do
  blockRequest .read block
  Op.modify fun s => copyCacheFrom slot s.staging { s with cache := Function.update s.cache slot ⟨block, true⟩ }

def readBlockUncached (index : ℕ) : Op (IpcBlockStore T) BlockError Block := do
  let s ← Op.get
  Op.guard (!decide (index ≥ s.blocks)) .outOfBounds
  blockRequest .read index
  let s ← Op.get
  Op.ret s.staging

def readBlock (index : ℕ) : Op (IpcBlockStore T) BlockError Block := do
  let s ← Op.get
  Op.guard (!decide (index ≥ s.blocks)) .outOfBounds
  match s.cachedSlot index with
  | some slot => Op.ret (s.copyCacheTo slot)
  | none => do
    blockRequest .read index
    let s ← Op.get
    fillCache index s.staging
    Op.ret s.staging

def writeBlock (index : ℕ) (input : Block) : Op (IpcBlockStore T) BlockError Unit := do
  let s ← Op.get
  Op.guard (!decide (index ≥ s.blocks)) .outOfBounds
  Op.modify fun s => { s with staging := input }
  blockRequest .write index
  fillCache index input

/-- The loop of `map_read_blocks` from `offset` on; an error takes the pins of the earlier pages off. -/
def mapLoop (start first : ℕ) : ℕ → ℕ → Op (IpcBlockStore T) BlockError Unit
  | 0, _ => Op.ret ()
  | n + 1, offset => do
    match ← Op.attempt (loadCacheSlot (start + offset) (first + offset)) with
    | .error e => do
      Op.modify fun s => { s with pinCount := fun slot => if first ≤ slot ∧ slot < first + offset then 0 else s.pinCount slot }
      Op.fail e
    | .ok _ => do
      Op.modify fun s => { s with pinCount := Function.update s.pinCount (first + offset) 1 }
      mapLoop start first n (offset + 1)

/-- The first stretch of `blocks` slots of which none is pinned. -/
def mapWindow (s : IpcBlockStore T) (blocks : ℕ) : Option ℕ :=
  (List.range (cacheSlots - blocks + 1)).find? fun first =>
    (List.range blocks).all fun offset => s.pinCount (first + offset) == 0

def mapReadBlocks (start blocks : ℕ) : Op (IpcBlockStore T) BlockError ReadMap := do
  Op.guard (!(blocks == 0 || decide (blocks > cacheMapMaxPages))) .invalidRequest
  let stop ← Op.orFail (checkedAdd start blocks) .outOfBounds
  let s ← Op.get
  Op.guard (!decide (stop > s.blocks)) .outOfBounds
  let first ← Op.orFail (s.mapWindow blocks) .invalidRequest
  mapLoop start first blocks 0
  Op.ret ⟨first, blocks⟩

def unmapRead (mapping : ReadMap) : Op (IpcBlockStore T) BlockError Unit := do
  let first := mapping.sourcePage
  let stop := first + mapping.pages
  Op.guard (!(mapping.pages == 0 || decide (stop > cacheSlots))) .invalidRequest
  let s ← Op.get
  Op.guard ((List.range mapping.pages).all fun offset => s.pinCount (first + offset) != 0) .stale
  Op.modify fun s =>
    { s with pinCount := fun slot => if first ≤ slot ∧ slot < stop then s.pinCount slot - 1 else s.pinCount slot }

def flush : Op (IpcBlockStore T) BlockError Unit := do
  let request ← request .flush 0 0
  let _ ← roundTrip request
  Op.ret ()

instance : BlockStore (IpcBlockStore T) where
  blockCount s := s.blocks
  readBlock := readBlock
  readBlockUncached := readBlockUncached
  writeBlock := writeBlock
  flush := flush
  mapReadBlocks := mapReadBlocks
  unmapRead := unmapRead

end Store

end IpcBlockStore

end LogOS.StorageService
