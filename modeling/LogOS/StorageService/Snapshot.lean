import LogOS.StorageService.Namespace

/-!
# The snapshot on the volume

The namespace and the package catalog are stored as one byte string, run-length coded as it is written into the metadata
blocks and decoded as it is read from them.  The encoder takes the string byte by byte, twice: once for its encoded length
and once for the blocks.  Its string is decoded into fresh tables, and what comes out is checked before it is used.
-/

namespace LogOS.StorageService

open Lib Abi Storage Storage.Catalog Package

/-! ## The volume under a namespace -/

/-- The trait `PersistentTransaction`: what a namespace needs of a transaction of its volume. -/
class PersistentTransaction (T : Type) : Type 1 where
  allocateBlocks {σ : Type} [BlockStore σ] : T → ℕ → Op σ CowError (CowExtent × T)
  allocateMetadataBlocks {σ : Type} [BlockStore σ] : T → ℕ → Op σ CowError (CowExtent × T)
  reserveExtent : T → CowExtent → Except CowError T
  retireExtent : T → CowExtent → Except CowError T
  writeBlock {σ : Type} [BlockStore σ] : T → ℕ → Block → Op σ CowError Unit

/-- The trait `NamespaceVolume`: what a namespace needs of its volume. -/
class NamespaceVolume (V : Type) (T : outParam Type) : Type 1 where
  format {σ : Type} [BlockStore σ] : Op σ NamespaceError V
  formatProvisioned {σ : Type} [BlockStore σ] : Op σ NamespaceError V
  openVolume {σ : Type} [BlockStore σ] : Op σ NamespaceError V
  begin {σ : Type} [BlockStore σ] : V → Op σ CowError T
  commit {σ : Type} [BlockStore σ] : V → T → CowExtent → ℕ → Op σ CowError V
  metadataExtent : V → CowExtent
  generation : V → ℕ
  readMetadataBlock {σ : Type} [BlockStore σ] : V → ℕ → Op σ CowError Block
  metadataBlocks : V → ℕ
  dataArena : V → ℕ × ℕ
  packageArena : V → Option (ℕ × ℕ)

instance : PersistentTransaction SystemCatalogTransaction where
  allocateBlocks t blocks := Op.lift (t.allocateBlocks blocks)
  allocateMetadataBlocks t blocks := Op.lift (t.allocateMetadataBlocks blocks)
  reserveExtent t extent := t.reserveExtent extent
  retireExtent t extent := t.retireExtent extent
  writeBlock t index block := t.writeBlock index block

/-- `SystemCatalogVolume::read_metadata_block`. -/
def readCatalogMetadataBlock {σ : Type} [BlockStore σ] (v : SystemCatalogVolume) (offset : ℕ) : Op σ CowError Block :=
  if offset ≥ v.root.metadataBlocks then Op.fail .invalidRequest
  else (readBlock (v.root.metadataStart + offset)).mapErr .block

instance : NamespaceVolume SystemCatalogVolume SystemCatalogTransaction where
  format := do
    let store ← Op.get
    let blocks := blockCount store
    (SystemCatalogVolume.format (blocks / 3) (blocks * 3 / 4)).mapErr mapCatalogError
  formatProvisioned := do
    let store ← Op.get
    let blocks := blockCount store
    (SystemCatalogVolume.formatProvisioned (blocks / 3) (blocks * 3 / 4)).mapErr mapCatalogError
  openVolume := SystemCatalogVolume.openVolume.mapErr mapCatalogError
  begin v := v.begin
  commit v t metadata metadataBytes := v.commit t metadata metadataBytes
  metadataExtent v := if v.root.metadataBlocks = 0 then ⟨0, 0⟩ else ⟨v.root.metadataStart, v.root.metadataBlocks⟩
  generation v := v.root.generation
  readMetadataBlock v offset := readCatalogMetadataBlock v offset
  metadataBlocks v := v.root.metadataBlocks
  dataArena v := v.userArena
  packageArena v := some v.packageArena

section Instance

variable (v : SystemCatalogVolume)

@[simp] lemma metadataBlocks_eq : NamespaceVolume.metadataBlocks v = v.root.metadataBlocks := rfl

@[simp] lemma generation_eq : NamespaceVolume.generation v = v.root.generation := rfl

@[simp] lemma dataArena_eq : NamespaceVolume.dataArena v = v.userArena := rfl

end Instance

/-! ## Encoding -/

def snapshotFixedBytes : ℕ := 4 + 2 + 4 + 1 + 1 + 2 + maxComponentBytes + 4
def extentWireBytes : ℕ := 8 + 4
def snapshotRecordBytes : ℕ := snapshotFixedBytes + 1 + maxFileExtents * extentWireBytes + maxFileBytes
def snapshotBytes : ℕ := maxObjects * snapshotRecordBytes
def storageSnapshotBytes : ℕ := snapshotBytes + packageSnapshotBytes
def storageSnapshotMaxBlocks : ℕ := (storageSnapshotBytes + blockBytes + blockBytes - 1) / blockBytes

/-- Byte `offset` of what is stored for a record. -/
def recordByte (record : ObjectRecord) (offset : ℕ) : UInt8 :=
  if offset < 4 then (leBytes 4 record.generation).getD offset 0
  else if offset < 6 then (leBytes 2 record.parent.slot).getD (offset - 4) 0
  else if offset < 10 then (leBytes 4 record.parent.generation).getD (offset - 6) 0
  else if offset = 10 then record.kind.toByte
  else if offset = 11 then if record.alive then 1 else 0
  else if offset < 14 then (leBytes 2 record.nameLength).getD (offset - 12) 0
  else if offset < 269 then record.name.byteAt (offset - 14)
  else if offset < 273 then (leBytes 4 record.length).getD (offset - 269) 0
  else if offset = 273 then UInt8.ofNat record.extents.length
  else if offset < snapshotFixedBytes + 1 + maxFileExtents * extentWireBytes then
    let offset := offset - (snapshotFixedBytes + 1)
    let extent := record.extents.getD (offset / extentWireBytes) ⟨0, 0⟩
    if offset % extentWireBytes < 8 then (leBytes 8 extent.start).getD (offset % extentWireBytes) 0
    else (leBytes 4 extent.blocks).getD (offset % extentWireBytes - 8) 0
  else record.data.byteAt (offset - (snapshotFixedBytes + 1 + maxFileExtents * extentWireBytes))

structure SnapshotSource where
  objects : ObjectNamespace
  packages : List UInt8
  offset : ℕ
  pending : Option UInt8

namespace SnapshotSource

def new (objects : ObjectNamespace) (packages : List UInt8) : SnapshotSource := ⟨objects, packages, 0, none⟩

/-- The byte at the offset that the source stands at. -/
def current (source : SnapshotSource) : UInt8 :=
  if source.offset < snapshotBytes then
    recordByte (source.objects.records.toList.getD (source.offset / snapshotRecordBytes) .empty)
      (source.offset % snapshotRecordBytes)
  else source.packages.getD (source.offset - snapshotBytes) 0

def next (source : SnapshotSource) : Option UInt8 × SnapshotSource :=
  match source.pending with
  | some byte => (some byte, { source with pending := none })
  | none =>
    if source.offset ≥ storageSnapshotBytes then (none, source)
    else (some source.current, { source with offset := source.offset + 1 })

/-- The loop of `run`: at most `n` further bytes that are zero, or not, like the first. -/
def runLoop (zero : Bool) : ℕ → SnapshotSource → List UInt8 × SnapshotSource
  | 0, source => ([], source)
  | n + 1, source =>
    match source.next with
    | (none, source) => ([], source)
    | (some next, source) =>
      if (next == 0) = zero then (next :: (runLoop zero n source).1, (runLoop zero n source).2)
      else ([], { source with pending := some next })

/-- The run that begins with `first`, of 256 bytes at most. -/
def run (source : SnapshotSource) (first : UInt8) : List UInt8 × SnapshotSource :=
  (first :: (source.runLoop (first == 0) 255).1, (source.runLoop (first == 0) 255).2)

end SnapshotSource

/-- The loop of `encoded_snapshot_length`, with at most `n` runs left. -/
def lengthLoop : ℕ → Option UInt8 → SnapshotSource → ℕ → ℕ
  | _, none, _, length => length
  | 0, some _, _, length => length
  | n + 1, some byte, source, length =>
    let run := source.run byte
    lengthLoop n run.2.next.1 run.2.next.2 (length + (3 + if byte == 0 then 0 else run.1.length))

def encodedSnapshotLength (source : SnapshotSource) : ℕ :=
  lengthLoop storageSnapshotBytes source.next.1 source.next.2 8

/-- The writer of a snapshot: the block that is being filled, its number in the extent, how much of it is filled, and how
many bytes were pushed in all. -/
structure SnapshotWriter (σ : Type) where
  store : σ
  block : Block
  blockNumber : ℕ
  offset : ℕ
  total : ℕ

namespace SnapshotWriter

variable {σ T : Type} [BlockStore σ] [PersistentTransaction T] (transaction : T) (extent : CowExtent)

def flushBlock : Op (SnapshotWriter σ) NamespaceError Unit := do
  let w ← Op.get
  Op.zoom SnapshotWriter.store (fun w s => { w with store := s })
    ((PersistentTransaction.writeBlock transaction (extent.start + w.blockNumber) w.block).mapErr .ofCow)
  Op.modify fun w => { w with block := Block.zero, blockNumber := w.blockNumber + 1, offset := 0 }

def push (byte : UInt8) : Op (SnapshotWriter σ) NamespaceError Unit := do
  let w ← Op.get
  Op.guard (w.blockNumber < extent.blocks) .tooLarge
  Op.modify fun w => { w with block := w.block.splice w.offset [byte], offset := w.offset + 1, total := w.total + 1 }
  if w.offset + 1 = blockBytes then flushBlock transaction extent else Op.ret ()

def pushBytes (bytes : List UInt8) : Op (SnapshotWriter σ) NamespaceError Unit :=
  Op.forEach (push transaction extent) bytes

/-- The loop of `write_snapshot_stream`, with at most `n` runs left. -/
def writeLoop : ℕ → Option UInt8 → SnapshotSource → Op (SnapshotWriter σ) NamespaceError Unit
  | _, none, _ => Op.ret ()
  | 0, some _, _ => Op.ret ()
  | n + 1, some byte, source => do
    let run := source.run byte
    push transaction extent (if byte == 0 then 0 else 1)
    pushBytes transaction extent (leBytes 2 run.1.length)
    if byte == 0 then Op.ret () else pushBytes transaction extent run.1
    writeLoop n run.2.next.1 run.2.next.2

def finish : Op (SnapshotWriter σ) NamespaceError ℕ := do
  let w ← Op.get
  if w.offset ≠ 0 then flushBlock transaction extent else Op.ret ()
  Op.ret w.total

end SnapshotWriter

def writeSnapshotStream {σ T : Type} [BlockStore σ] [PersistentTransaction T] (transaction : T) (extent : CowExtent)
    (source : SnapshotSource) (encodedLength : ℕ) : Op σ NamespaceError Unit :=
  Op.zoom (fun s => SnapshotWriter.mk s Block.zero 0 0 0) (fun _ w => w.store) do
    SnapshotWriter.pushBytes transaction extent (leBytes 4 storageSnapshotBytes)
    SnapshotWriter.pushBytes transaction extent (leBytes 4 encodedLength)
    SnapshotWriter.writeLoop transaction extent storageSnapshotBytes source.next.1 source.next.2
    let total ← SnapshotWriter.finish transaction extent
    Op.guard (total == encodedLength) .recovery

/-! ## Decoding -/

structure SnapshotReader (σ : Type) where
  store : σ
  block : Block
  blockNumber : ℕ
  offset : ℕ

structure SnapshotDecoder (σ : Type) where
  reader : SnapshotReader σ
  encodedLength : ℕ
  consumed : ℕ
  outputOffset : ℕ
  runRemaining : ℕ
  runLiteral : Bool

variable {σ V T : Type} [BlockStore σ] [NamespaceVolume V T] (volume : V)

namespace SnapshotReader

def readByte : Op (SnapshotReader σ) NamespaceError UInt8 := do
  let r ← Op.get
  if r.offset = blockBytes then do
    Op.guard (r.blockNumber != NamespaceVolume.metadataBlocks volume) .invalidRecord
    let block ← Op.zoom SnapshotReader.store (fun r s => { r with store := s })
      ((NamespaceVolume.readMetadataBlock volume r.blockNumber).mapErr .ofCow)
    Op.modify fun r => { r with block := block, blockNumber := r.blockNumber + 1, offset := 0 }
  else Op.ret ()
  let r ← Op.get
  Op.modify fun r => { r with offset := r.offset + 1 }
  Op.ret (r.block.byteAt r.offset)

def readBytes : ℕ → Op (SnapshotReader σ) NamespaceError (List UInt8)
  | 0 => Op.ret []
  | n + 1 => do
    let byte ← readByte volume
    let bytes ← readBytes n
    Op.ret (byte :: bytes)

end SnapshotReader

namespace SnapshotDecoder

def onReader {α : Type} (m : Op (SnapshotReader σ) NamespaceError α) : Op (SnapshotDecoder σ) NamespaceError α :=
  Op.zoom SnapshotDecoder.reader (fun d r => { d with reader := r }) m

/-- A decoder that has not read anything. -/
def atStart (store : σ) : SnapshotDecoder σ := ⟨⟨store, Block.zero, 0, blockBytes⟩, 0, 0, 0, 0, false⟩

/-- `SnapshotDecoder::new`: the two lengths in front of the runs. -/
def start : Op (SnapshotDecoder σ) NamespaceError Unit := do
  let blocks := NamespaceVolume.metadataBlocks volume
  Op.guard (!(blocks == 0 || blocks > storageSnapshotMaxBlocks)) .recovery
  let header ← onReader (SnapshotReader.readBytes volume 8)
  let originalLength := getLe header 0 4
  let encodedLength := getLe header 4 4
  Op.guard (!(originalLength != storageSnapshotBytes || encodedLength < 8 || encodedLength > blocks * blockBytes))
    .invalidRecord
  Op.modify fun d => { d with encodedLength := encodedLength, consumed := 8 }

/-- The flag and the length of the next run; `false` when there is none. -/
def nextRun : Op (SnapshotDecoder σ) NamespaceError Bool := do
  let d ← Op.get
  if d.consumed = d.encodedLength then Op.ret false
  else do
    Op.guard (d.consumed + 3 ≤ d.encodedLength) .invalidRecord
    let flag ← onReader (SnapshotReader.readByte volume)
    let low ← onReader (SnapshotReader.readByte volume)
    let high ← onReader (SnapshotReader.readByte volume)
    Op.modify fun d => { d with runLiteral := flag != 0 }
    Op.guard (leVal [low, high] != 0) .invalidRecord
    Op.modify fun d => { d with consumed := d.consumed + 3, runRemaining := leVal [low, high] }
    Op.ret true

def next : Op (SnapshotDecoder σ) NamespaceError (Option UInt8) := do
  let d ← Op.get
  let more ← if d.runRemaining = 0 then nextRun volume else Op.ret true
  if more = false then Op.ret none
  else do
    let d ← Op.get
    Op.guard (d.outputOffset != storageSnapshotBytes) .invalidRecord
    let byte ← if d.runLiteral then onReader (SnapshotReader.readByte volume) else Op.ret 0
    Op.modify fun d => { d with
      consumed := if d.runLiteral then d.consumed + 1 else d.consumed
      runRemaining := d.runRemaining - 1, outputOffset := d.outputOffset + 1 }
    Op.ret (some byte)

/-- One byte, which has to be there. -/
def byte : Op (SnapshotDecoder σ) NamespaceError UInt8 := do
  Op.orFail (← next volume) .invalidRecord

def readExact : ℕ → Op (SnapshotDecoder σ) NamespaceError (List UInt8)
  | 0 => Op.ret []
  | n + 1 => do
    let b ← byte volume
    let bytes ← readExact n
    Op.ret (b :: bytes)

def finish : Op (SnapshotDecoder σ) NamespaceError Unit := do
  let last ← next volume
  let d ← Op.get
  Op.guard (!(last.isSome || d.consumed != d.encodedLength || d.outputOffset != storageSnapshotBytes)) .invalidRecord

/-- The extents of a record from `index` on, `n` of them. -/
def readExtents (count : ℕ) : ℕ → ℕ → Op (SnapshotDecoder σ) NamespaceError (List CowExtent)
  | _, 0 => Op.ret []
  | index, n + 1 => do
    let start := leVal (← readExact volume 8)
    let blocks := leVal (← readExact volume 4)
    if index < count then do
      Op.guard (blocks != 0) .invalidRecord
      let extents ← readExtents count (index + 1) n
      Op.ret (⟨start, blocks⟩ :: extents)
    else do
      Op.guard (!(start != 0 || blocks != 0)) .invalidRecord
      readExtents count (index + 1) n

/-- `restore_record_from_decoder`.  The check that only files have extents looks at the kind that the slot had *before*. -/
def restoreRecord (record : ObjectRecord) : Op (SnapshotDecoder σ) NamespaceError ObjectRecord := do
  let generation := leVal (← readExact volume 4)
  let slot := leVal (← readExact volume 2)
  let parentGeneration := leVal (← readExact volume 4)
  let parent ← Op.orFail (ObjectId.make slot parentGeneration) .invalidRecord
  let kind ← (do Op.orFail (ObjectKind.ofByte (← byte volume)) .invalidRecord)
  let alive ← byte volume
  Op.guard (alive ≤ 1) .invalidRecord
  let nameLength := leVal (← readExact volume 2)
  Op.guard (nameLength ≤ maxComponentBytes) .invalidRecord
  let name ← readExact volume 255
  let length := leVal (← readExact volume 4)
  let extentCount := (← byte volume).toNat
  Op.guard (extentCount ≤ maxFileExtents) .invalidRecord
  let extents ← readExtents volume extentCount 0 maxFileExtents
  Op.guard (!(extentCount == 0 && length > maxFileBytes)) .invalidRecord
  Op.guard (!(extentCount != 0 && (record.kind != .file || length > Extent.total extents * blockBytes))) .invalidRecord
  let data ← readExact volume 8192
  Op.ret {
    generation := generation, parent := parent, kind := kind, alive := alive != 0, nameLength := nameLength
    name := (Bytes.zeros 255).splice 0 name, length := length, extents := extents
    data := (Bytes.zeros 8192).splice 0 data }

/-- The records one after the other. -/
def restoreRecords : List ObjectRecord → Op (SnapshotDecoder σ) NamespaceError (List ObjectRecord)
  | [] => Op.ret []
  | record :: records => do
    let restored ← restoreRecord volume record
    let rest ← restoreRecords records
    Op.ret (restored :: rest)

end SnapshotDecoder

/-! ## What is checked of a decoded snapshot -/

namespace ObjectNamespace

/-- The namespace of the records of a list. -/
def ofRecords (records : List ObjectRecord) : ObjectNamespace := ⟨Vector.ofFn fun i => records.getD i .empty⟩

def checkRoot (ns : ObjectNamespace) : Except NamespaceError Unit :=
  let root := ns.records.get 0
  if root.generation ≠ ObjectId.root.generation ∨ root.alive = false ∨ root.kind ≠ .directory then .error .invalidRecord
  else .ok ()

/-- The way from `current` up to the root, in at most `n` steps. -/
def checkReachesRoot (ns : ObjectNamespace) : ℕ → ObjectId → Except NamespaceError Unit
  | 0, _ => .error .invalidRecord
  | n + 1, current =>
    if current = .root then .ok ()
    else do
      let record ← ns.lookup.objectRecord current
      checkReachesRoot ns n record.parent

/-- A live record other than the root has a proper name, is found under it, and hangs below the root. -/
def checkObject (ns : ObjectNamespace) (index : ℕ) (record : ObjectRecord) : Except NamespaceError Unit :=
  if record.alive = false then .ok ()
  else do
    validateName record.nameBytes
    let parent ← ns.lookup.objectRecord record.parent
    let child ← ns.lookup.findChild record.parent record.nameBytes
    if parent.kind ≠ .directory ∨ child ≠ some ⟨index, record.generation⟩ then .error .invalidRecord
    else checkReachesRoot ns (maxObjects + 1) ⟨index, record.generation⟩

/-- No extent of `extents` meets `extent`. -/
def apart (extent : CowExtent) (extents : List CowExtent) : Bool := extents.all fun other => !extentsMeet extent other

/-- The extents of a live file lie in the arena, hold its length, and meet neither each other nor those of the records
before it. -/
def checkFile (ns : ObjectNamespace) (arena : ℕ × ℕ) (index : ℕ) (record : ObjectRecord) : Except NamespaceError Unit :=
  if record.alive = false ∨ record.extents = [] then .ok ()
  else if record.kind ≠ .file ∨ record.extents.length > maxFileExtents ∨
      record.length > Extent.total record.extents * blockBytes then .error .invalidRecord
  else if ¬ (record.extents.zipIdx.all fun (extent, extentIndex) =>
      insideArena extent arena && apart extent (record.extents.take extentIndex) &&
        (ns.records.toList.take index).all fun other => !other.alive || apart extent other.extents) then
    .error .invalidRecord
  else .ok ()

/-- The extents of the live files meet no package. -/
def checkPackages (ns : ObjectNamespace) (packages : List PackageExtent) : Except NamespaceError Unit :=
  if ns.records.toList.all fun record => !record.alive || record.extents.all fun extent => apart extent packages then .ok ()
  else .error .invalidRecord

end ObjectNamespace

/-- The part of `restore_snapshot_from_store` with a decoder. -/
def decodeSnapshot (objects : ObjectNamespace) : Op (SnapshotDecoder σ) NamespaceError (ObjectNamespace × PackageCatalog) := do
  SnapshotDecoder.start volume
  let objects := ObjectNamespace.ofRecords (← SnapshotDecoder.restoreRecords volume objects.records.toList)
  Op.lift objects.checkRoot
  Op.lift ((objects.records.toList.zipIdx.drop 1).forM fun (record, index) => objects.checkObject index record)
  Op.lift (objects.records.toList.zipIdx.forM fun (record, index) =>
    objects.checkFile (NamespaceVolume.dataArena volume) index record)
  let bytes ← SnapshotDecoder.readExact volume packageSnapshotBytes
  SnapshotDecoder.finish volume
  let packages ← (Op.lift (PackageCatalog.restoreSnapshot bytes (NamespaceVolume.packageArena volume))).mapErr .package
  Op.lift (objects.checkPackages packages.usedExtents)
  Op.ret (objects, packages)

/-- The single metadata block of a volume is blank, as a new volume may have it. -/
def metadataBlank : Op σ NamespaceError Bool :=
  if NamespaceVolume.metadataBlocks volume = 1 then do
    let block ← (NamespaceVolume.readMetadataBlock volume 0).mapErr .ofCow
    Op.ret ((slice block.toList 0 8).all (· == 0))
  else Op.ret false

def restoreSnapshotFromStore (objects : ObjectNamespace) (packages : PackageCatalog) :
    Op σ NamespaceError (ObjectNamespace × PackageCatalog) :=
  if NamespaceVolume.metadataBlocks volume = 0 then Op.ret (objects, packages)
  else do
    if ← metadataBlank volume then do
      Op.guard (NamespaceVolume.generation volume == 1) .invalidRecord
      Op.ret (objects, packages)
    else
      Op.zoom SnapshotDecoder.atStart (fun _ d => d.reader.store) (decodeSnapshot volume objects)

end LogOS.StorageService
