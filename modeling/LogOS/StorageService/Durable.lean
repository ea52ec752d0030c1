import LogOS.StorageService.Snapshot

/-!
# The durable namespace

The namespace and the package catalog in memory, on a store and a volume.  An operation changes the tables first and then
persists them as a whole; when that fails it opens the volume again and takes the tables from there.  The state after an
operation is the state after it *in both cases*: what an operation had changed before it failed stays changed.
-/

namespace LogOS.StorageService

open Lib Abi Storage Storage.Catalog Package

/-- A namespace on a store.  `lost` is a history variable, read by no operation: after a failed operation the volume could
not be opened again, so that the tables in memory were kept as the operation had left them. -/
structure DurableNamespace (σ V : Type) where
  store : σ
  volume : V
  objects : ObjectNamespace
  packages : PackageCatalog
  retiredFileExtents : List CowExtent
  retiredPackageExtents : List CowExtent
  activePackageInstall : Option ℕ
  nextPackageInstall : ℕ
  lost : Bool

abbrev DurableNamespaceV5 (σ : Type) : Type := DurableNamespace σ SystemCatalogVolume

def newNamespace {σ V : Type} (store : σ) (volume : V) : DurableNamespace σ V where
  store := store
  volume := volume
  objects := .new
  packages := .new
  retiredFileExtents := []
  retiredPackageExtents := []
  activePackageInstall := none
  nextPackageInstall := 1
  lost := false

def isBoundsError : NamespaceError → Bool
  | .tooLarge => true
  | .capacity => true
  | .generationExhausted => true
  | _ => false

namespace DurableNamespace

variable {σ V T : Type} [BlockStore σ] [PersistentTransaction T] [NamespaceVolume V T]

/-- An operation on the store alone. -/
def onStore {ε α : Type} (m : Op σ ε α) : Op (DurableNamespace σ V) ε α :=
  Op.zoom DurableNamespace.store (fun d s => { d with store := s }) m

/-- An operation of the volume on the store: `?` turns its errors into those of a namespace. -/
def onVolume {α : Type} (m : Op σ CowError α) : Op (DurableNamespace σ V) NamespaceError α := onStore (m.mapErr .ofCow)

/-- A block operation: `?` turns its errors into `NamespaceError::Block`. -/
def onBlocks {α : Type} (m : Op σ BlockError α) : Op (DurableNamespace σ V) NamespaceError α := onStore (m.mapErr .block)

def reopen : Op (DurableNamespace σ V) NamespaceError Unit := do
  let volume : V ← onStore NamespaceVolume.openVolume
  let tables ← onStore (restoreSnapshotFromStore volume .new .new)
  Op.modify fun d => { d with
    volume := volume, objects := tables.1, packages := tables.2
    retiredFileExtents := [], retiredPackageExtents := [], activePackageInstall := none }

/-! ## Persisting -/

def recoverPersistError (previousGeneration : ℕ) (error : NamespaceError) : Op (DurableNamespace σ V) NamespaceError ℕ := do
  reopen.onError fun d => { d with lost := true }
  let d ← Op.get
  if NamespaceVolume.generation d.volume > previousGeneration then Op.ret (NamespaceVolume.generation d.volume)
  else if isBoundsError error then Op.fail error
  else Op.fail .commitNotPublished

/-- `?` on a call of the transaction that needs no store. -/
def ofCowResult {α : Type} : Except CowError α → Except NamespaceError α
  | .ok a => .ok a
  | .error e => .error (.ofCow e)

def persistSnapshotWith (transaction : T) : Op (DurableNamespace σ V) NamespaceError ℕ := do
  let d ← Op.get
  let source := SnapshotSource.new d.objects d.packages.encodeSnapshot
  let compressedLength := encodedSnapshotLength source
  let metadataBlocks := (compressedLength + blockBytes - 1) / blockBytes
  Op.guard (metadataBlocks ≤ storageSnapshotMaxBlocks) .tooLarge
  let transaction ← Op.lift (ofCowResult
    ((d.packages.usedExtents.filter (·.blocks != 0)).foldlM PersistentTransaction.reserveExtent transaction))
  let (extent, transaction) ← onVolume (PersistentTransaction.allocateMetadataBlocks transaction metadataBlocks)
  onStore (writeSnapshotStream transaction extent source compressedLength)
  let previous := NamespaceVolume.metadataExtent d.volume
  let transaction ← Op.lift (ofCowResult ((d.retiredFileExtents ++ d.retiredPackageExtents ++
    if previous = ⟨0, 0⟩ then [] else [previous]).foldlM PersistentTransaction.retireExtent transaction))
  let volume ← onVolume (NamespaceVolume.commit d.volume transaction extent compressedLength)
  Op.modify fun d => { d with volume := volume, retiredFileExtents := [], retiredPackageExtents := [] }
  Op.ret (NamespaceVolume.generation volume)

def persistSnapshot : Op (DurableNamespace σ V) NamespaceError ℕ := do
  let d ← Op.get
  let transaction ← onVolume (NamespaceVolume.begin d.volume)
  persistSnapshotWith transaction

/-- The end of every operation that changes the tables: `persist`, and if that fails the recovery. -/
def orRecover (persist : Op (DurableNamespace σ V) NamespaceError ℕ) : Op (DurableNamespace σ V) NamespaceError ℕ := do
  let d ← Op.get
  match ← Op.attempt persist with
  | .ok generation => Op.ret generation
  | .error error => recoverPersistError (NamespaceVolume.generation d.volume) error

def queueRetiredFileExtents (extents : List CowExtent) : Op (DurableNamespace σ V) NamespaceError Unit := do
  let d ← Op.get
  Op.guard (d.retiredFileExtents.length + extents.length ≤ maxObjects * maxFileExtents) .capacity
  Op.modify fun d => { d with retiredFileExtents := d.retiredFileExtents ++ extents }

def queueRetiredPackageExtents (extents : List CowExtent) : Op (DurableNamespace σ V) NamespaceError Unit := do
  let d ← Op.get
  Op.guard (d.retiredPackageExtents.length + extents.length ≤ maxPackageExtents) .capacity
  Op.modify fun d => { d with retiredPackageExtents := d.retiredPackageExtents ++ extents }

/-! ## Operations on objects -/

def applyRecord (kind : ℕ) (payload : List UInt8) : Op (DurableNamespace σ V) NamespaceError Unit := do
  let d ← Op.get
  let objects ← Op.lift (d.objects.applyRecord kind payload)
  Op.modify fun d => { d with objects := objects }

/-- The extents that a record of a transaction sets free. -/
def retiredBy (objects : ObjectNamespace) (kind : ℕ) (payload : List UInt8) : Except NamespaceError (List CowExtent) :=
  if kind = unlinkKind ∧ payload.length = 6 then do
    let id ← objectIdAt payload 0
    objects.lookup.fileExtents id
  else .ok []

def commitOne (kind : ℕ) (payload : List UInt8) : Op (DurableNamespace σ V) NamespaceError Unit := do
  let d ← Op.get
  let retired ← Op.lift (retiredBy d.objects kind payload)
  Op.guard (d.retiredFileExtents.length + retired.length ≤ maxObjects * maxFileExtents) .capacity
  applyRecord kind payload
  queueRetiredFileExtents retired
  let _ ← orRecover persistSnapshot
  Op.ret ()

def create (parent : ObjectId) (kind : ObjectKind) (name : List UInt8) :
    Op (DurableNamespace σ V) NamespaceError ObjectId := do
  let d ← Op.get
  let (id, payload) ← Op.lift (d.objects.lookup.planCreate parent kind name)
  commitOne createKind payload.toList
  Op.ret id

def createFile (parent : ObjectId) (name : List UInt8) : Op (DurableNamespace σ V) NamespaceError ObjectId :=
  create parent .file name

def createDirectory (parent : ObjectId) (name : List UInt8) : Op (DurableNamespace σ V) NamespaceError ObjectId :=
  create parent .directory name

def mkdirPath (path : List UInt8) : Op (DurableNamespace σ V) NamespaceError ObjectId := do
  let d ← Op.get
  let (parent, name) ← Op.lift (d.objects.lookup.parentAndName path)
  createDirectory parent name

def rename (id parent : ObjectId) (name : List UInt8) : Op (DurableNamespace σ V) NamespaceError Unit := do
  let d ← Op.get
  Op.guard (id != .root) .root
  let _ ← Op.lift (d.objects.lookup.objectRecord id)
  Op.lift (d.objects.lookup.directory parent)
  Op.lift (validateNewName name)
  let child ← Op.lift (d.objects.lookup.findChild parent name)
  Op.guard (!child.any (· != id)) .alreadyExists
  Op.guard (!(← Op.lift (d.objects.lookup.isDescendant id parent))) .invalidPath
  commitOne renameKind (renamePayload id parent name).toList

def unlink (id : ObjectId) : Op (DurableNamespace σ V) NamespaceError Unit := do
  let d ← Op.get
  let _ ← Op.lift (d.objects.lookup.objectRecord id)
  commitOne unlinkKind (unlinkPayload id).toList

def write (id : ObjectId) (offset : ℕ) (input : List UInt8) : Op (DurableNamespace σ V) NamespaceError ℕ := do
  let d ← Op.get
  let record ← Op.lift (d.objects.lookup.objectRecord id)
  Op.guard (record.kind == .file) .isDirectory
  Op.guard (!(input.isEmpty || offset + input.length > maxFileBytes)) .tooLarge
  Op.guard record.extents.isEmpty .unsupported
  Op.guard ((writePayloads id offset input).length ≤ maxWriteRecords) .tooLarge
  Op.forEach (applyRecord writeKind) (writePayloads id offset input)
  let _ ← orRecover persistSnapshot
  Op.ret input.length

/-! ## Writing to extents -/

end DurableNamespace

/-- An `ExtentLayout` is the list of its extents; appending merges with the last extent where it can, and fails past
`MAX_FILE_EXTENTS`. -/
def layoutPush (layout : List CowExtent) (extent : CowExtent) : Option (List CowExtent) :=
  match layout.getLast? with
  | some previous =>
    if previous.start + previous.blocks = extent.start ∧ previous.blocks + extent.blocks < 2 ^ 32 then
      some (layout.dropLast ++ [⟨previous.start, previous.blocks + extent.blocks⟩])
    else if layout.length = maxFileExtents then none
    else some (layout ++ [extent])
  | none => some [extent]

/-- The part of an extent at the logical blocks `logical ..` that lies in the logical blocks `lo .. hi`. -/
def clip (lo hi logical : ℕ) (extent : CowExtent) : CowExtent :=
  ⟨extent.start + (max lo logical - logical), min hi (logical + extent.blocks) - max lo logical⟩

/-- The loop of `push_logical` from the logical block `logical` on. -/
def pushLogicalFrom (lo hi : ℕ) : ℕ → List CowExtent → List CowExtent → Option (List CowExtent)
  | _, [], layout => some layout
  | logical, extent :: extents, layout =>
    if max lo logical < min hi (logical + extent.blocks) then
      match layoutPush layout (clip lo hi logical extent) with
      | none => none
      | some layout => pushLogicalFrom lo hi (logical + extent.blocks) extents layout
    else pushLogicalFrom lo hi (logical + extent.blocks) extents layout

/-- Append the physical runs behind the logical blocks `lo .. hi` of `extents`. -/
def layoutPushLogical (layout extents : List CowExtent) (lo hi : ℕ) : Option (List CowExtent) :=
  pushLogicalFrom lo hi 0 extents layout

/-- The block at `blockStart` of a file after `input` was written to the file at `offset`. -/
def patchBlock (offset : ℕ) (input : List UInt8) (blockStart : ℕ) (block : Block) : Block :=
  let stop := offset + input.length
  let inputStart := max offset blockStart
  let inputEnd := min stop (blockStart + blockBytes)
  if inputStart < inputEnd then
    block.splice (inputStart - blockStart) (slice input (inputStart - offset) (inputEnd - offset))
  else block

section Extents

variable {σ T : Type} [BlockStore σ] [PersistentTransaction T]

/-- Allocation of `requested` blocks, or of half as many, and so on; `n` bounds the attempts. -/
def allocateHalving (transaction : T) : ℕ → ℕ → Op σ CowError (CowExtent × T)
  | 0, _ => Op.fail .outOfSpace
  | n + 1, requested => do
    match ← Op.attempt (PersistentTransaction.allocateBlocks transaction requested) with
    | .ok result => Op.ret result
    | .error .outOfSpace =>
      if requested > 1 then allocateHalving transaction n ((requested + 1) / 2) else Op.fail .outOfSpace
    | .error e => Op.fail e

/-- The extents for `remaining` blocks, found after `extents`; `n` bounds the rounds. -/
def allocateExtents : ℕ → ℕ → T → List CowExtent → Op σ NamespaceError (List CowExtent × T)
  | 0, _, transaction, extents => Op.ret (extents, transaction)
  | n + 1, remaining, transaction, extents =>
    if remaining = 0 then Op.ret (extents, transaction)
    else if extents.length = maxFileExtents then Op.fail .tooLarge
    else do
      let requested := min remaining (2 ^ 32 - 1)
      let (extent, transaction) ← (allocateHalving transaction requested requested).mapErr .ofCow
      allocateExtents n (remaining - extent.blocks) transaction (extents ++ [extent])

def readLogicalBlock (extents : List CowExtent) (logicalBlock : ℕ) : Op σ NamespaceError Block := do
  let physical ← Op.orFail (Extent.blockAt extents logicalBlock) .invalidRecord
  (readBlock physical).mapErr .block

/-- The old contents of a block of a file, zero past its end. -/
def oldBlock (record : ObjectRecord) (blockNumber : ℕ) : Op σ NamespaceError Block :=
  let blockStart := blockNumber * blockBytes
  if record.extents = [] then
    if blockNumber < (record.length + blockBytes - 1) / blockBytes then
      Op.ret (Block.zero.splice 0 (slice record.data.toList blockStart
        (blockStart + min (record.length - blockStart) blockBytes)))
    else Op.ret Block.zero
  else if blockNumber < Extent.total record.extents then readLogicalBlock record.extents blockNumber
  else Op.ret Block.zero

/-- The block `blockNumber` of a file, changed by a write, goes to the block `physical`. -/
def writeFileBlock (transaction : T) (record : ObjectRecord) (offset : ℕ) (input : List UInt8)
    (blockNumber physical : ℕ) : Op σ NamespaceError Unit := do
  let block ← oldBlock record blockNumber
  (PersistentTransaction.writeBlock transaction physical
    (patchBlock offset input (blockNumber * blockBytes) block)).mapErr .ofCow

/-- The blocks of a file from number `first` on go to the blocks of an extent. -/
def writeFileExtent (transaction : T) (record : ObjectRecord) (offset : ℕ) (input : List UInt8) (first : ℕ)
    (extent : CowExtent) : Op σ NamespaceError Unit :=
  Op.forRange (fun extentBlock =>
    writeFileBlock transaction record offset input (first + extentBlock) (extent.start + extentBlock)) 0 extent.blocks

/-- The blocks of a file from number `first` on go to the blocks of the extents, one extent after the other. -/
def writeFileExtents (transaction : T) (record : ObjectRecord) (offset : ℕ) (input : List UInt8) :
    ℕ → List CowExtent → Op σ NamespaceError Unit
  | _, [] => Op.ret ()
  | first, extent :: extents => do
    writeFileExtent transaction record offset input first extent
    writeFileExtents transaction record offset input (first + extent.blocks) extents

/-- The loop of `write_extent_range` over the logical blocks `logical .. last`: a new extent is appended to the layout and
filled; none when the layout has no room for it. -/
def writeRange (record : ObjectRecord) (offset : ℕ) (input : List UInt8) (last : ℕ) :
    ℕ → ℕ → T → List CowExtent → Op σ NamespaceError (Option (List CowExtent × T))
  | 0, _, transaction, layout => Op.ret (some (layout, transaction))
  | n + 1, logical, transaction, layout =>
    if logical < last then do
      let requested := min (last - logical) (2 ^ 32 - 1)
      let (extent, transaction) ← (allocateHalving transaction requested requested).mapErr .ofCow
      match layoutPush layout extent with
      | none => Op.ret none
      | some layout => do
        writeFileExtent transaction record offset input logical extent
        writeRange record offset input last n (logical + extent.blocks) transaction layout
    else Op.ret (some (layout, transaction))

/-- The loop of `read_extent_range`. -/
def readExtentRange (extents : List CowExtent) (offset length : ℕ) : Op σ NamespaceError (List UInt8) :=
  copyRange .invalidRecord .block (Extent.blockAt extents) length offset length

end Extents

namespace DurableNamespace

variable {σ V T : Type} [BlockStore σ] [PersistentTransaction T] [NamespaceVolume V T]

def setFileExtents (id : ObjectId) (extents : List CowExtent) (length : ℕ) :
    Op (DurableNamespace σ V) NamespaceError Unit := do
  let d ← Op.get
  let objects ← Op.lift (d.objects.setFileExtents id extents length)
  Op.modify fun d => { d with objects := objects }

/-- The end of both ways to write to extents: the file gets its new extents, the ones it gave up are queued, and the
transaction is persisted. -/
def publishExtents (id : ObjectId) (transaction : T) (extents retired : List CowExtent) (length : ℕ) :
    Op (DurableNamespace σ V) NamespaceError Unit := do
  let d ← Op.get
  Op.guard (d.retiredFileExtents.length + retired.length ≤ maxObjects * maxFileExtents) .capacity
  setFileExtents id extents length
  queueRetiredFileExtents retired
  let _ ← orRecover (persistSnapshotWith transaction)
  Op.ret ()

/-- Copy-on-write of the blocks that a write touches; none when the layout that results has too many extents. -/
def writeExtentRange (id : ObjectId) (offset : ℕ) (input : List UInt8) (record : ObjectRecord) :
    Op (DurableNamespace σ V) NamespaceError (Option ℕ) := do
  let d ← Op.get
  let old ← Op.lift (d.objects.lookup.fileExtents id)
  let stop := offset + input.length
  let oldBlocks := Extent.total old
  let first := min (offset / blockBytes) oldBlocks
  let last := (stop + blockBytes - 1) / blockBytes
  match layoutPushLogical [] old 0 first, layoutPushLogical [] old first (min last oldBlocks) with
  | some layout, some retired => do
    let transaction ← onVolume (NamespaceVolume.begin d.volume)
    match ← onStore (writeRange record offset input last (last - first) first transaction layout) with
    | none => Op.ret none
    | some (layout, transaction) =>
      match layoutPushLogical layout old last oldBlocks with
      | none => Op.ret none
      | some layout => do
        publishExtents id transaction layout retired (max record.length stop)
        Op.ret (some input.length)
  | _, _ => Op.ret none

/-- The whole file goes to new extents. -/
def rewriteFile (id : ObjectId) (offset : ℕ) (input : List UInt8) (record : ObjectRecord) :
    Op (DurableNamespace σ V) NamespaceError ℕ := do
  let d ← Op.get
  let newLength := max record.length (offset + input.length)
  let remainingBlocks := (newLength + blockBytes - 1) / blockBytes
  let oldExtents ← Op.lift (d.objects.lookup.fileExtents id)
  let transaction ← onVolume (NamespaceVolume.begin d.volume)
  let (newExtents, transaction) ← onStore (allocateExtents (remainingBlocks + 1) remainingBlocks transaction [])
  onStore (writeFileExtents transaction record offset input 0 newExtents)
  publishExtents id transaction newExtents oldExtents newLength
  Op.ret input.length

def writeHandleExtent (id : ObjectId) (offset : ℕ) (input : List UInt8) (record : ObjectRecord) :
    Op (DurableNamespace σ V) NamespaceError ℕ := do
  let written ← if record.extents ≠ [] then writeExtentRange id offset input record else Op.ret none
  match written with
  | some written => Op.ret written
  | none => rewriteFile id offset input record

def writeHandle (id : ObjectId) (offset : ℕ) (input : List UInt8) : Op (DurableNamespace σ V) NamespaceError ℕ := do
  Op.guard (!input.isEmpty) .tooLarge
  let d ← Op.get
  let record ← Op.lift (d.objects.lookup.objectRecord id)
  Op.guard (record.kind == .file) .isDirectory
  let stop ← Op.orFail (checkedAdd offset input.length) .tooLarge
  if record.extents = [] ∧ stop ≤ maxFileBytes then write id offset input
  else writeHandleExtent id offset input record

/-! ## Reading -/

/-- What is put into a buffer of `capacity` bytes. -/
def readHandle (id : ObjectId) (offset capacity : ℕ) : Op (DurableNamespace σ V) NamespaceError (List UInt8) := do
  let d ← Op.get
  let record ← Op.lift (d.objects.lookup.objectRecord id)
  let extents ← Op.lift (d.objects.lookup.fileExtents id)
  if extents = [] then Op.lift (d.objects.lookup.read id offset capacity)
  else do
    Op.guard (offset ≤ record.length) .tooLarge
    onStore (readExtentRange extents offset (min capacity (record.length - offset)))

/-- The search of `map_read` for the extent with the block `remaining` of the file, from which `blocks` are to be mapped. -/
def selectExtent (blocks : ℕ) : ℕ → List CowExtent → Except NamespaceError (CowExtent × ℕ)
  | _, [] => .error .invalidRecord
  | remaining, extent :: extents =>
    if remaining < extent.blocks then
      if blocks > extent.blocks - remaining then .error .unsupported else .ok (extent, remaining)
    else selectExtent blocks (remaining - extent.blocks) extents

/-- A store that cannot map says `InvalidRequest`. -/
def mapReadError : BlockError → NamespaceError
  | .invalidRequest => .unsupported
  | other => .block other

def mapRead (id : ObjectId) (offset length : ℕ) : Op (DurableNamespace σ V) NamespaceError ReadMap := do
  let d ← Op.get
  let record ← Op.lift (d.objects.lookup.objectRecord id)
  Op.guard (record.kind == .file) .isDirectory
  let extents ← Op.lift (d.objects.lookup.fileExtents id)
  Op.guard (!extents.isEmpty) .unsupported
  Op.guard (!(length == 0 || offset % blockBytes != 0 || length % blockBytes != 0 || length > 16 * blockBytes ||
    offset + length > record.length)) .invalidRecord
  let (extent, localStart) ← Op.lift (selectExtent (length / blockBytes) (offset / blockBytes) extents)
  onStore ((mapReadBlocks (extent.start + localStart) (length / blockBytes)).mapErr mapReadError)

def unmapRead (mapping : ReadMap) : Op (DurableNamespace σ V) NamespaceError Unit :=
  onBlocks (BlockStore.unmapRead mapping)

def beginTransaction (d : DurableNamespace σ V) : NamespaceTransaction := .new (NamespaceVolume.generation d.volume)

/-- The tables with the changes of a transaction over them. -/
def overlay (objects : ObjectNamespace) (changes : Vector (Option ObjectRecord) 4) : ObjectNamespace :=
  ⟨Vector.ofFn fun slot => (changes[slot]).getD objects.records[slot]⟩

/-- `NamespaceTransaction::commit`: a transaction over an older generation is refused. -/
def commitTransaction (transaction : NamespaceTransaction) : Op (DurableNamespace σ V) NamespaceError ℕ := do
  let d ← Op.get
  Op.guard (NamespaceVolume.generation d.volume == transaction.baseGeneration) .stale
  Op.modify fun d => { d with
    objects := overlay d.objects transaction.changes, retiredFileExtents := transaction.retiredExtents }
  let generation ← orRecover persistSnapshot
  Op.ret (generation - 1)

def flush : Op (DurableNamespace σ V) NamespaceError Unit := onBlocks BlockStore.flush

/-! ## Packages -/

/-- An operation of the package catalog on the store: `?` turns its errors into `NamespaceError::Package`. -/
def onPackages {α : Type} (m : Op σ PackageCatalogError α) : Op (DurableNamespace σ V) NamespaceError α :=
  onStore (m.mapErr .package)

def lookupPackageError : PackageCatalogError → NamespaceError
  | .stale => .notFound
  | e => .package e

def lookupPackageTarget (target : PackageKey) : Op (DurableNamespace σ V) NamespaceError PackageInfo := do
  let d ← Op.get
  onStore ((d.packages.lookupWithStore target).mapErr lookupPackageError)

def packageAt (index : ℕ) : Op (DurableNamespace σ V) NamespaceError (Option PackageInfo) := do
  let d ← Op.get
  match d.packages.targetAt index with
  | none => Op.ret none
  | some target => do
    let info ← lookupPackageTarget target
    Op.ret (some info)

/-- The loop of `lookup_package_name` from `index` on, `n` packages far. -/
def findPackageName (name : PackageName) : ℕ → ℕ → Op (DurableNamespace σ V) NamespaceError PackageInfo
  | _, 0 => Op.fail .notFound
  | index, n + 1 => do
    match ← packageAt index with
    | none => Op.fail .notFound
    | some info =>
      if info.manifest.any fun manifest => manifest.name == name then Op.ret info else findPackageName name (index + 1) n

def lookupPackageName (name : List UInt8) : Op (DurableNamespace σ V) NamespaceError PackageInfo :=
  match PackageName.parse name with
  | .ok name => findPackageName name 0 maxPackageRecords
  | .error _ => Op.fail .notFound

def beginPackageInstallTarget (target : PackageKey) (bytes : ℕ) : Op (DurableNamespace σ V) NamespaceError PackageInstall := do
  let d ← Op.get
  Op.guard d.activePackageInstall.isNone (.package .busy)
  let arena ← Op.orFail (NamespaceVolume.packageArena d.volume) .unsupported
  let installId := d.nextPackageInstall
  Op.guard (installId + 1 < 2 ^ 32) (.package .invalidRequest)
  Op.modify fun d => { d with nextPackageInstall := installId + 1 }
  let install ← (Op.lift (d.packages.planInstall arena target bytes)).mapErr .package
  Op.modify fun d => { d with activePackageInstall := some installId }
  Op.ret { install with installId := installId }

/-- A chunk of the package; the result is the installation with the chunk marked as written. -/
def writePackageChunk (install : PackageInstall) (offset : ℕ) (input : List UInt8) :
    Op (DurableNamespace σ V) NamespaceError PackageInstall := do
  let d ← Op.get
  Op.guard (d.activePackageInstall == some install.installId) .invalidRecord
  Op.guard (install.writeOffsetValid offset input.length &&
    !(offset + input.length < install.bytes && input.length != blockBytes)) .invalidRecord
  let index ← Op.orFail (install.logicalBlock (offset / blockBytes)) .invalidRecord
  onBlocks (writeBlock index (Block.zero.splice 0 input))
  Op.ret (install.markWritten offset)

def abortPackageInstall (install : PackageInstall) : Op (DurableNamespace σ V) NamespaceError Unit :=
  Op.modify fun d =>
    if d.activePackageInstall = some install.installId then { d with activePackageInstall := none } else d

def commitPackageInstallInner (install : PackageInstall) : Op (DurableNamespace σ V) NamespaceError PackageHandle := do
  let d ← Op.get
  let arena ← Op.orFail (NamespaceVolume.packageArena d.volume) .unsupported
  Op.guard install.complete .invalidRecord
  onBlocks BlockStore.flush
  let package ← onPackages (validateInstallOnStore install)
  Op.guard (package.payloadLength + package.headerBytes == install.bytes) .invalidRecord
  onPackages (d.packages.validateInstallPolicy install.target package)
  let generation ← (Op.lift (d.packages.nextGeneration install.target)).mapErr .package
  let packages ← (Op.lift (d.packages.applyRecord packageInstallKind
    (encodeInstallRecord install package generation).toList (some arena))).mapErr .package
  Op.modify fun d => { d with packages := packages }
  match d.packages.lookup install.target with
  | none => Op.ret ()
  | some old => do
    Op.guard (old.extents.all (·.blocks != 0)) .recovery
    queueRetiredPackageExtents old.extents
  let _ ← orRecover persistSnapshot
  Op.ret ⟨install.target, generation⟩

def commitPackageInstall (install : PackageInstall) : Op (DurableNamespace σ V) NamespaceError PackageHandle := do
  let d ← Op.get
  Op.guard (d.activePackageInstall == some install.installId) .invalidRecord
  match ← Op.attempt (commitPackageInstallInner install) with
  | .ok handle => do
    Op.modify fun d => { d with activePackageInstall := none }
    Op.ret handle
  | .error e => do
    Op.modify fun d => { d with activePackageInstall := none }
    Op.fail e

/-- The package that a file holds is for this target. -/
def packageFileTarget (objects : ObjectNamespace) (id : ObjectId) : Except NamespaceError PackageKey := do
  let front ← objects.lookup.read id 0 10
  if front.length ≠ 10 then .error .invalidRecord
  else if getLe front 8 2 = packageFormatVersionV2 then do
    let header ← objects.lookup.read id 0 packageHeaderV2Bytes
    if header.length ≠ packageHeaderV2Bytes then .error .invalidRecord
    else
      match PackageHeaderV2.decode header with
      | .error _ => .error .invalidRecord
      | .ok header =>
        match PackageKey.fromManifest header.manifest with
        | .error _ => .error .invalidRecord
        | .ok target => .ok target
  else do
    let header ← objects.lookup.read id 0 packageHeaderBytes
    if header.length ≠ packageHeaderBytes then .error .invalidRecord
    else
      match ServicePackageHeader.decode header with
      | .error _ => .error .invalidRecord
      | .ok header => .ok (.service header.service)

/-- The chunks of the file `id` from `offset` on, `n` of them, go to the installation. -/
def copyPackageFile (id : ObjectId) (length : ℕ) :
    ℕ → ℕ → PackageInstall → Op (DurableNamespace σ V) NamespaceError PackageInstall
  | _, 0, install => Op.ret install
  | offset, n + 1, install => do
    let d ← Op.get
    let amount := min (length - offset) blockBytes
    let bytes ← Op.lift (d.objects.lookup.read id offset amount)
    Op.guard (bytes.length == amount) .invalidRecord
    let install ← writePackageChunk install offset bytes
    copyPackageFile id length (offset + blockBytes) n install

def installPackageFile (path : List UInt8) : Op (DurableNamespace σ V) NamespaceError PackageHandle := do
  let d ← Op.get
  let id ← Op.lift (d.objects.lookup.resolvePath path)
  let info ← Op.lift (d.objects.lookup.stat id)
  Op.guard (!(info.kind != .file || info.length == 0)) .invalidRecord
  let target ← Op.lift (packageFileTarget d.objects id)
  let install ← beginPackageInstallTarget target info.length
  match ← Op.attempt (do
      let install ← copyPackageFile id info.length 0 ((info.length + blockBytes - 1) / blockBytes) install
      commitPackageInstall install) with
  | .ok handle => Op.ret handle
  | .error (e : NamespaceError) => do
    abortPackageInstall install
    Op.fail e

/-- What is put into a buffer of `capacity` bytes. -/
def readPackage (handle : PackageHandle) (offset capacity : ℕ) : Op (DurableNamespace σ V) NamespaceError (List UInt8) := do
  let d ← Op.get
  let info ← (Op.lift (d.packages.validateHandle handle)).mapErr .package
  Op.guard (offset ≤ info.bytes) .tooLarge
  let length := min capacity (info.bytes - offset)
  onStore (copyRange .invalidRecord .block (Extent.blockAt info.extents) length offset length)

end DurableNamespace

/-! ## Version 5 -/

/-- The errors of `UserError` that the store of a user catalog returns. -/
inductive UserError where
  | capacity
  | notFound
  | persistence
  deriving DecidableEq, Repr

def mapUserCatalogError : CatalogError → UserError
  | .unformatted => .notFound
  | .outOfSpace => .capacity
  | .invalidRequest => .persistence
  | .block _ => .persistence
  | .notBlank => .persistence
  | .provisionedBlank => .persistence
  | .unsupportedVersion => .persistence
  | .corrupt => .persistence
  | .tooSmall => .persistence
  | .tooLarge => .persistence
  | .generationExhausted => .persistence

namespace DurableNamespace

variable {σ : Type} [BlockStore σ]

/-- The namespace on the volume that `m` makes of the store. -/
def onVolumeOf (m : Op σ NamespaceError SystemCatalogVolume) (store : σ) : Except NamespaceError (DurableNamespaceV5 σ) :=
  match m store with
  | (.ok volume, store) => .ok (newNamespace store volume)
  | (.error e, _) => .error e

def formatV5 (store : σ) : Except NamespaceError (DurableNamespaceV5 σ) := onVolumeOf NamespaceVolume.format store

def formatV5Provisioned (store : σ) : Except NamespaceError (DurableNamespaceV5 σ) :=
  onVolumeOf NamespaceVolume.formatProvisioned store

def openV5 (store : σ) : Except NamespaceError (DurableNamespaceV5 σ) := do
  let filesystem ← onVolumeOf NamespaceVolume.openVolume store
  match reopen filesystem with
  | (.ok (), filesystem) => .ok filesystem
  | (.error e, _) => .error e

/-- The volume and its store, without the tables. -/
def mounted (d : DurableNamespaceV5 σ) : Mounted σ := ⟨d.volume, d.store, d.lost⟩

/-- `UserCatalogStore::load`: what is put into a buffer of `capacity` bytes. -/
def load (capacity : ℕ) : Op (DurableNamespaceV5 σ) UserError (List UInt8) := do
  let d ← Op.get
  onStore ((d.volume.readCatalog capacity).mapErr mapUserCatalogError)

/-- `UserCatalogStore::save`. -/
def save (snapshot : List UInt8) : Op (DurableNamespaceV5 σ) UserError Unit :=
  Op.zoom mounted (fun d m => { d with volume := m.volume, store := m.store, lost := m.lost }) do
    let _ ← (Mounted.replaceCatalog snapshot).mapErr mapUserCatalogError
    Op.ret ()

end DurableNamespace

end LogOS.StorageService
