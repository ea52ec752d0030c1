import LogOS.Lib.Bytes

/-!
# Numbers and names shared by the services

The part of the binary interface that the modelled components use: the service identifiers, the requests, operations
and statuses of the storage protocol in their decoded form, the messages the storage service exchanges with the kernel
for a single block, and the handles the kernel gives out.
-/

namespace LogOS.Abi

open Lib

def abiVersion : ℕ := 14
def maxServiceImageBytes : ℕ := 2048 * 1024
def maxIpcBytes : ℕ := 256
def storageCachePages : ℕ := 32
def storageApiFlagReplace : ℕ := 1
def storageApiResponseDataBytes : ℕ := maxIpcBytes - 18
def storageApiMapLengthBytes : ℕ := 4
def storageApiMapDescriptorBytes : ℕ := 9

inductive ServiceId where
  | input
  | display
  | terminal
  | session
  | flow
  | storage
  | network
  | fetch
  | device
  | user
  | shell
  | lockScreen
  | atrium
  | system
  deriving DecidableEq, Repr

namespace ServiceId

def index : ServiceId → ℕ
  | input => 0
  | display => 1
  | terminal => 2
  | session => 3
  | flow => 4
  | storage => 5
  | network => 6
  | fetch => 7
  | device => 8
  | user => 9
  | shell => 10
  | lockScreen => 11
  | atrium => 12
  | system => 13

def fromIndex : ℕ → Option ServiceId
  | 0 => some input
  | 1 => some display
  | 2 => some terminal
  | 3 => some session
  | 4 => some flow
  | 5 => some storage
  | 6 => some network
  | 7 => some fetch
  | 8 => some device
  | 9 => some user
  | 10 => some shell
  | 11 => some lockScreen
  | 12 => some atrium
  | 13 => some system
  | _ => none

/-- A service as a nonzero byte, and back. -/
def ofByte (raw : UInt8) : Option ServiceId := if raw = 0 then none else fromIndex (raw.toNat - 1)

lemma ofByte_index (service : ServiceId) : ofByte (UInt8.ofNat (service.index + 1)) = some service := by
  cases service <;> rfl

end ServiceId

inductive StorageApiOperation where
  | begin
  | commit
  | abort
  | list
  | createFile
  | read
  | write
  | remove
  | rename
  | stageWriteBegin
  | stageWriteChunk
  | stageWriteCommit
  | stageWriteAbort
  | packageList
  | packageInfo
  | packageInstall
  | open
  | close
  | stat
  | mkdir
  | handleRead
  | handleWrite
  | fsync
  | mapRead
  | unmapRead
  deriving DecidableEq, Repr

inductive StorageApiStatus where
  | ok
  | invalid
  | busy
  | noTransaction
  | stale
  | io
  | notFound
  | alreadyExists
  | notDirectory
  | isDirectory
  | root
  | notEmpty
  | capacity
  | tooLarge
  | unsupported
  | unavailable
  | permissionDenied
  | readOnly
  | recovery
  | corrupt
  deriving DecidableEq, Repr

/-- A request of the storage protocol, as `StorageApiRequest::decode` returns it. -/
structure StorageApiRequest where
  operation : StorageApiOperation
  flags : ℕ
  transactionId : ℕ
  offset : ℕ
  path : List UInt8
  secondaryPath : List UInt8
  data : List UInt8
  deriving Repr

/-! ## Block requests to the kernel -/

def ipcPageBytes : ℕ := 4096
def storageBlockBytes : ℕ := 4096
def storageMaxBlocksPerRequest : ℕ := 1

inductive IpcStatus where
  | ok
  | full
  | empty
  | stale
  | disconnected
  | unauthorized
  | malformed
  deriving DecidableEq, Repr

inductive StorageOperation where
  | read
  | write
  | flush
  | format
  | reopen
  | beginTransaction
  | appendRecord
  | commitTransaction
  | abortTransaction
  deriving DecidableEq, Repr

inductive StorageStatus where
  | ok
  | io
  | outOfBounds
  | readOnly
  | invalid
  | stale
  | unauthorized
  | full
  | recovery
  | unsupported
  deriving DecidableEq, Repr

structure StorageRequest where
  operation : StorageOperation
  flags : ℕ
  requestId : ℕ
  generation : ℕ
  serviceEpoch : ℕ
  startBlock : ℕ
  blocks : ℕ
  payloadBytes : ℕ
  transactionId : ℕ
  deriving DecidableEq, Repr

namespace StorageRequest

def isBlockIo (request : StorageRequest) : Bool := request.operation == .read || request.operation == .write

def new (operation : StorageOperation) (requestId generation serviceEpoch startBlock blocks payloadBytes transactionId : ℕ) :
    Option StorageRequest :=
  if requestId = 0 ∨ generation = 0 ∨ serviceEpoch = 0 ∨ blocks > storageMaxBlocksPerRequest ∨
      payloadBytes > ipcPageBytes then none
  else if operation = .read ∨ operation = .write then
    if blocks ≠ 1 ∨ payloadBytes ≠ storageBlockBytes then none
    else some ⟨operation, 0, requestId, generation, serviceEpoch, startBlock, blocks, payloadBytes, transactionId⟩
  else if operation = .appendRecord then
    if blocks ≠ 0 ∨ payloadBytes = 0 then none
    else some ⟨operation, 0, requestId, generation, serviceEpoch, startBlock, blocks, payloadBytes, transactionId⟩
  else if blocks ≠ 0 ∨ payloadBytes ≠ 0 then none
  else some ⟨operation, 0, requestId, generation, serviceEpoch, startBlock, blocks, payloadBytes, transactionId⟩

end StorageRequest

structure StorageResponse where
  requestId : ℕ
  status : StorageStatus
  reserved : ℕ
  generation : ℕ
  blocksCompleted : ℕ
  payloadBytes : ℕ
  transactionId : ℕ
  blockCount : ℕ
  deriving DecidableEq, Repr

def StorageResponse.new (requestId : ℕ) (status : StorageStatus) (generation blocksCompleted payloadBytes transactionId : ℕ) :
    StorageResponse :=
  ⟨requestId, status, 0, generation, blocksCompleted, payloadBytes, transactionId, 0⟩

/-! ## Handles -/

inductive IpcRights where
  | send
  | receive
  deriving DecidableEq, Repr

/-- What a handle names. -/
inductive HandleKind where
  | service
  | endpoint
  | capability
  | event
  | eventSet

/-- A 64-bit name: the index of a slot in the low half, its generation in the high half. -/
structure Handle (kind : HandleKind) where
  raw : ℕ
  deriving DecidableEq, Repr

abbrev ServiceHandle := Handle .service
abbrev EndpointHandle := Handle .endpoint
abbrev CapabilityHandle := Handle .capability
abbrev EventHandle := Handle .event
abbrev EventSetHandle := Handle .eventSet

namespace Handle

variable {kind : HandleKind}

def new (index generation : ℕ) : Option (Handle kind) :=
  if generation = 0 then none else some ⟨generation * 2 ^ 32 + index % 2 ^ 32⟩

def fromRaw (raw : ℕ) : Option (Handle kind) := if raw / 2 ^ 32 = 0 then none else some ⟨raw⟩

def index (handle : Handle kind) : ℕ := handle.raw % 2 ^ 32

def generation (handle : Handle kind) : ℕ := handle.raw / 2 ^ 32

def isValid (handle : Handle kind) : Bool := handle.generation != 0

lemma eq_iff {h k : Handle kind} : h = k ↔ h.index = k.index ∧ h.generation = k.generation := by
  rcases h with ⟨a⟩
  rcases k with ⟨b⟩
  simp only [index, generation, mk.injEq]
  omega

lemma raw_inj {h k : Handle kind} : h.raw = k.raw ↔ h = k := by
  rcases h with ⟨a⟩
  rcases k with ⟨b⟩
  simp

lemma new_eq_some_iff {i g : ℕ} (hi : i < 2 ^ 32) {h : Handle kind} :
    new i g = some h ↔ g ≠ 0 ∧ h.index = i ∧ h.generation = g := by
  rcases h with ⟨a⟩
  unfold new
  split
  · simp [*]
  · simp only [index, generation, Option.some.injEq, mk.injEq]
    omega

/-- A handle for every slot and every generation but zero. -/
theorem exists_new (kind : HandleKind) {i g : ℕ} (hi : i < 2 ^ 32) (hg : 1 ≤ g) :
    ∃ h : Handle kind, new i g = some h ∧ h.index = i ∧ h.generation = g := by
  have hne : g ≠ 0 := by omega
  obtain ⟨h, hh⟩ : ∃ h : Handle kind, new i g = some h := by simp [new, hne]
  exact ⟨h, hh, ((new_eq_some_iff hi).mp hh).2⟩

lemma fromRaw_raw {h : Handle kind} (hg : h.generation ≠ 0) : fromRaw h.raw = some h := by
  rw [fromRaw, if_neg (show ¬ h.raw / 2 ^ 32 = 0 from hg)]

lemma raw_ne_zero {h : Handle kind} (hg : 1 ≤ h.generation) : h.raw ≠ 0 := by
  intro h0
  rw [generation, h0] at hg
  exact absurd hg (by decide)

end Handle

end LogOS.Abi
