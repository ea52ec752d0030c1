import LogOS.Package.Validate
import LogOS.Lib.Extent

/-!
# The package catalog

The table of installed packages that the storage service keeps in memory and stores in its snapshot: planning an
installation in the package arena, the checks that a new package has to pass, and the record format with its decoder.
The arrays with a separate count are lists here; an entry past the count is empty in the source.
-/

namespace LogOS.StorageService

open Lib Abi Storage Storage.Catalog Package

def maxPackageRecords : ℕ := 16
def maxPackageExtents : ℕ := 8
def packageInstallKind : ℕ := 0x0100
def packageRecordBytes : ℕ := 156
def packageSnapshotBytes : ℕ := 2 + maxPackageRecords * packageRecordBytes
def legacyPackageRecordBytes : ℕ := 152
def legacyPackageRecords : ℕ := 8
def legacyPackageSnapshotBytes : ℕ := 2 + maxPackageRecords * legacyPackageRecordBytes
def packageSnapshotVersion : UInt8 := 3

inductive PackageCatalogError where
  | unsupported
  | busy
  | capacity
  | versionConflict
  | missingDependency
  | dependencyConflict
  | tooLarge
  | invalidRequest
  | stale
  | noSpace
  | invalidRecord
  | block (e : BlockError)
  | format (e : PackageError)
  deriving DecidableEq, Repr

abbrev PackageExtent : Type := Extent

inductive PackageKey where
  | service (id : ServiceId)
  | program (name : PackageName)
  deriving DecidableEq

def PackageKey.fromManifest (manifest : PackageManifest) : Except PackageCatalogError PackageKey :=
  match manifest.kind, manifest.target with
  | .service, .service id => .ok (.service id)
  | .program, .none => .ok (.program manifest.name)
  | _, _ => .error .invalidRecord

structure PackageHandle where
  target : PackageKey
  generation : ℕ
  deriving DecidableEq

structure PackageInfo where
  handle : PackageHandle
  packageVersion : ℕ
  manifest : Option PackageManifest
  bytes : ℕ
  crc32c : ℕ
  extents : List PackageExtent

structure PackageRecord where
  alive : Bool
  target : PackageKey
  generation : ℕ
  packageVersion : ℕ
  bytes : ℕ
  crc32c : ℕ
  extents : List PackageExtent
  deriving DecidableEq

namespace PackageRecord

def empty : PackageRecord where
  alive := false
  target := .service .input
  generation := 0
  packageVersion := 0
  bytes := 0
  crc32c := 0
  extents := []

def info (record : PackageRecord) : PackageInfo where
  handle := ⟨record.target, record.generation⟩
  packageVersion := record.packageVersion
  manifest := none
  bytes := record.bytes
  crc32c := record.crc32c
  extents := record.extents

def logicalBlock (record : PackageRecord) (index : ℕ) : Option ℕ :=
  if index ≥ (record.bytes + blockBytes - 1) / blockBytes then none else Extent.blockAt record.extents index

end PackageRecord

structure PackageInstall where
  installId : ℕ
  target : PackageKey
  bytes : ℕ
  blocks : ℕ
  extents : List PackageExtent
  written : ℕ → Bool

namespace PackageInstall

def writeOffsetValid (install : PackageInstall) (offset length : ℕ) : Bool :=
  offset % blockBytes == 0 && length != 0 && length ≤ blockBytes && (checkedAdd offset length).any (· ≤ install.bytes)

def markWritten (install : PackageInstall) (offset : ℕ) : PackageInstall :=
  { install with written := fun index => index == offset / blockBytes || install.written index }

def complete (install : PackageInstall) : Bool := (List.range install.blocks).all install.written

def logicalBlock (install : PackageInstall) (index : ℕ) : Option ℕ :=
  if index ≥ install.blocks then none else Extent.blockAt install.extents index

end PackageInstall

structure ValidatedPackage where
  payloadLength : ℕ
  packageVersion : ℕ
  payloadCrc32c : ℕ
  headerBytes : ℕ
  manifest : Option PackageManifest

def PackageInstall.record (install : PackageInstall) (package : ValidatedPackage) : PackageRecord where
  alive := true
  target := install.target
  generation := 0
  packageVersion := package.packageVersion
  bytes := install.bytes
  crc32c := package.payloadCrc32c
  extents := install.extents

/-! ## Records -/

def encodeExtent (extent : Extent) : List UInt8 := leBytes 8 extent.start ++ leBytes 4 extent.blocks

def decodeExtent (input : List UInt8) (offset : ℕ) : Extent := ⟨getLe input offset 8, getLe input (offset + 8) 4⟩

/-- The tag and the name of a package in a record. -/
def encodeTarget : PackageKey → Bytes 156 → Bytes 156
  | .service id, output => (output.splice 1 [1]).splice 2 [UInt8.ofNat (id.index + 1)]
  | .program name, output =>
    ((output.splice 1 [2]).splice 3 [UInt8.ofNat name.bytes.length]).splice 4 name.bytes

def encodeRecord (record : PackageRecord) : Bytes 156 :=
  let output : Bytes 156 := (Bytes.zeros 156).splice 0 [if record.alive then 1 else 0]
  let output := if record.alive then encodeTarget record.target output else output
  let output := putLe output 40 4 record.generation
  let output := putLe output 44 4 record.packageVersion
  let output := putLe output 48 4 record.bytes
  let output := putLe output 52 4 record.crc32c
  let output := output.splice 56 [UInt8.ofNat record.extents.length]
  output.splice 60 (record.extents.flatMap encodeExtent)

def encodeInstallRecord (install : PackageInstall) (package : ValidatedPackage) (generation : ℕ) : Bytes 156 :=
  encodeRecord { install.record package with generation := generation }

/-- The eight extents of a record, `stride` bytes apart: as many as the count says, and empty ones behind them. -/
def decodeExtents (input : List UInt8) (offset stride count : ℕ) : Except PackageCatalogError (List PackageExtent) :=
  let extents := (List.range maxPackageExtents).map fun index => decodeExtent input (offset + index * stride)
  if count > maxPackageExtents ∨ (extents.drop count).any (· != ⟨0, 0⟩) ∨ (extents.take count).any (·.blocks == 0) then
    .error .invalidRecord
  else .ok (extents.take count)

def decodeTarget (input : List UInt8) : Except PackageCatalogError PackageKey :=
  if input.getD 1 0 = 1 then
    match ServiceId.ofByte (input.getD 2 0) with
    | some id => .ok (.service id)
    | none => .error .invalidRecord
  else if input.getD 1 0 = 2 then
    let length := (input.getD 3 0).toNat
    if length = 0 ∨ length > maxPackageNameBytes ∨ (slice input (4 + length) 36).any (· != 0) then .error .invalidRecord
    else
      match PackageName.parse (slice input 4 (4 + length)) with
      | .ok name => .ok (.program name)
      | .error _ => .error .invalidRecord
  else .error .invalidRecord

/-- The generation and the size that a live record may have. -/
def recordSizeOk (generation bytes : ℕ) : Bool :=
  generation != 0 && packageHeaderBytes ≤ bytes && bytes ≤ maxPackageBytesV2

/-- The record at the beginning of `input`; of a record that is not alive everything behind its first byte is zero, *to the
end of the input*. -/
def decodeRecord (input : List UInt8) : Except PackageCatalogError PackageRecord :=
  if input.length < packageRecordBytes ∨ input.getD 0 0 > 1 then .error .invalidRecord
  else if input.getD 0 0 = 0 then
    if (input.drop 1).any (· != 0) then .error .invalidRecord else .ok .empty
  else do
    let target ← decodeTarget input
    let extents ← decodeExtents input 60 12 (input.getD 56 0).toNat
    if recordSizeOk (getLe input 40 4) (getLe input 48 4) then
      .ok ⟨true, target, getLe input 40 4, getLe input 44 4, getLe input 48 4, getLe input 52 4, extents⟩
    else .error .invalidRecord

def decodeLegacyRecord (input : List UInt8) : Except PackageCatalogError PackageRecord :=
  if input.length < legacyPackageRecordBytes ∨ input.getD 0 0 > 1 then .error .invalidRecord
  else if input.getD 0 0 = 0 then
    if (input.drop 1).any (· != 0) then .error .invalidRecord else .ok .empty
  else
    match ServiceId.ofByte (input.getD 1 0) with
    | none => .error .invalidRecord
    | some service => do
      let extents ← decodeExtents input 24 16 (input.getD 20 0).toNat
      if recordSizeOk (getLe input 4 4) (getLe input 12 4) then
        .ok ⟨true, .service service, getLe input 4 4, getLe input 8 4, getLe input 12 4, getLe input 16 4, extents⟩
      else .error .invalidRecord

/-- The extents meet, or one of them ends past the last block number. -/
def extentsMeet (a b : Extent) : Bool :=
  match checkedAdd a.start a.blocks, checkedAdd b.start b.blocks with
  | some aEnd, some bEnd => a.start < bEnd && b.start < aEnd
  | _, _ => true

/-- The extent lies in the arena; it may be empty. -/
def insideArena (extent : Extent) (arena : ℕ × ℕ) : Bool :=
  extent.start ≥ arena.1 && (checkedAdd extent.start extent.blocks).any (· ≤ arena.2)

def validateRecordLayout (record : PackageRecord) (arena : ℕ × ℕ) (records : List PackageRecord) (skip : Option ℕ) :
    Except PackageCatalogError Unit :=
  if arena.2 ≤ arena.1 ∨ ¬ record.alive then .error .invalidRecord
  else if ¬ (record.extents.zipIdx.all fun (extent, index) =>
      insideArena extent arena && (record.extents.take index).all (fun previous => !extentsMeet extent previous) &&
        records.zipIdx.all fun (other, otherIndex) =>
          some otherIndex == skip || !other.alive || other.extents.all fun otherExtent => !extentsMeet extent otherExtent) then
    .error .invalidRecord
  else if Extent.total record.extents ≠ (record.bytes + blockBytes - 1) / blockBytes then .error .invalidRecord
  else .ok ()

/-! ## The catalog -/

structure PackageCatalog where
  records : Vector PackageRecord 16

namespace PackageCatalog

def new : PackageCatalog := ⟨Vector.replicate 16 .empty⟩

/-- The records that are alive, in order. -/
def live (catalog : PackageCatalog) : List PackageRecord := catalog.records.toList.filter (·.alive)

def usedExtents (catalog : PackageCatalog) : List PackageExtent := catalog.live.flatMap (·.extents)

def find (catalog : PackageCatalog) (target : PackageKey) : Option PackageRecord :=
  catalog.records.toList.find? fun record => record.alive && record.target == target

def lookup (catalog : PackageCatalog) (target : PackageKey) : Option PackageInfo := (catalog.find target).map (·.info)

def validateHandle (catalog : PackageCatalog) (handle : PackageHandle) : Except PackageCatalogError PackageInfo :=
  match catalog.lookup handle.target with
  | none => .error .stale
  | some info => if info.handle ≠ handle then .error .stale else .ok info

def targetAt (catalog : PackageCatalog) (index : ℕ) : Option PackageKey := catalog.live[index]?.map (·.target)

def nextGeneration (catalog : PackageCatalog) (target : PackageKey) : Except PackageCatalogError ℕ :=
  match catalog.lookup target with
  | none => .ok 1
  | some info => if info.handle.generation + 1 < 2 ^ 32 then .ok (info.handle.generation + 1) else .error .invalidRequest

def blockUsed (catalog : PackageCatalog) (block : ℕ) : Bool :=
  catalog.live.any fun record => record.extents.any fun extent =>
    (checkedAdd extent.start extent.blocks).any fun stop => extent.start ≤ block && block < stop

/-- `cursor` moved on to the next block that is not used, and at most to `stop`. -/
def skipUsed (catalog : PackageCatalog) (stop : ℕ) : ℕ → ℕ → ℕ
  | 0, cursor => cursor
  | n + 1, cursor => if cursor < stop ∧ catalog.blockUsed cursor then skipUsed catalog stop n (cursor + 1) else cursor

/-- `cursor` moved on over blocks that are not used, and at most to `stop`. -/
def skipFree (catalog : PackageCatalog) (stop : ℕ) : ℕ → ℕ → ℕ
  | 0, cursor => cursor
  | n + 1, cursor => if cursor < stop ∧ ¬ catalog.blockUsed cursor then skipFree catalog stop n (cursor + 1) else cursor

/-- The loop of `plan_install` from `cursor` on, with at most `n` rounds left. -/
def planLoop (catalog : PackageCatalog) (stop : ℕ) :
    ℕ → ℕ → ℕ → List PackageExtent → Except PackageCatalogError (List PackageExtent)
  | 0, _, _, _ => .error .noSpace
  | n + 1, cursor, remaining, extents =>
    if remaining = 0 then .ok extents
    else if cursor < stop then
      let start := catalog.skipUsed stop (stop - cursor) cursor
      let cursor := catalog.skipFree stop (min remaining (stop - start)) start
      if cursor - start = 0 then planLoop catalog stop n cursor remaining extents
      else if extents.length = maxPackageExtents then .error .capacity
      else planLoop catalog stop n cursor (remaining - (cursor - start)) (extents ++ [⟨start, cursor - start⟩])
    else .error .noSpace

def planInstall (catalog : PackageCatalog) (arena : ℕ × ℕ) (target : PackageKey) (bytes : ℕ) :
    Except PackageCatalogError PackageInstall :=
  if ¬ (packageHeaderBytes ≤ bytes ∧ bytes ≤ maxPackageBytesV2) then .error .tooLarge
  else if (catalog.lookup target).isNone ∧ ¬ catalog.records.toList.any (fun record => !record.alive) then .error .capacity
  else do
    let blocks := (bytes + blockBytes - 1) / blockBytes
    let extents ← catalog.planLoop arena.2 (arena.2 - arena.1 + 2) arena.1 blocks []
    .ok ⟨0, target, bytes, blocks, extents, fun _ => false⟩

/-- The slot that a record is put into: that of a package with the same target, or the first free one. -/
def slotFor (catalog : PackageCatalog) (target : PackageKey) : Option ℕ :=
  (catalog.records.toList.findIdx? fun current => current.alive && current.target == target).or
    (catalog.records.toList.findIdx? fun current => !current.alive)

def applyRecord (catalog : PackageCatalog) (kind : ℕ) (payload : List UInt8) (arena : Option (ℕ × ℕ)) :
    Except PackageCatalogError PackageCatalog :=
  if kind ≠ packageInstallKind ∨ payload.length ≠ packageRecordBytes then .error .invalidRecord
  else do
    let record ← decodeRecord payload
    match catalog.slotFor record.target with
    | none => .error .capacity
    | some slot =>
      match arena with
      | none => .error .unsupported
      | some arena => do
        validateRecordLayout record arena catalog.records.toList (some slot)
        .ok ⟨catalog.records.setIfInBounds slot record⟩

def encodeSnapshot (catalog : PackageCatalog) : List UInt8 :=
  packageSnapshotVersion :: UInt8.ofNat maxPackageRecords :: catalog.records.toList.flatMap fun record => (encodeRecord record).toList

/-- The records of a snapshot are checked against each other: no target twice, and no two extents that meet. -/
def checkRecords (records : List PackageRecord) (arena : Option (ℕ × ℕ)) : Except PackageCatalogError Unit :=
  records.zipIdx.forM fun (record, index) =>
    if record.alive then
      match arena with
      | none => .error .unsupported
      | some arena =>
        if (records.take index).any (fun other => other.alive && other.target == record.target) then .error .invalidRecord
        else validateRecordLayout record arena records (some index)
    else .ok ()

/-- The catalog whose first records are those of the list. -/
def ofRecords (records : List PackageRecord) : PackageCatalog := ⟨Vector.ofFn fun i => records.getD i .empty⟩

def restoreSnapshot (input : List UInt8) (arena : Option (ℕ × ℕ)) : Except PackageCatalogError PackageCatalog := do
  let records ←
    if input.length = 2 + legacyPackageRecords * legacyPackageRecordBytes ∧ input.getD 0 0 = 1 ∧
        (input.getD 1 0).toNat = legacyPackageRecords then
      (List.range legacyPackageRecords).mapM fun index =>
        let start := 2 + index * legacyPackageRecordBytes
        decodeLegacyRecord (slice input start (start + legacyPackageRecordBytes))
    else if input.length = packageSnapshotBytes ∧ input.getD 0 0 = packageSnapshotVersion ∧
        (input.getD 1 0).toNat = maxPackageRecords then
      (List.range maxPackageRecords).mapM fun index => decodeRecord (input.drop (2 + index * packageRecordBytes))
    else if input.length = legacyPackageSnapshotBytes ∧ input.getD 0 0 = 2 ∧
        (input.getD 1 0).toNat = maxPackageRecords then
      (List.range maxPackageRecords).mapM fun index =>
        let start := 2 + index * legacyPackageRecordBytes
        decodeLegacyRecord (slice input start (start + legacyPackageRecordBytes))
    else .error .invalidRecord
  checkRecords records arena
  .ok (ofRecords records)

end PackageCatalog

/-! ## Packages on the store -/

section OnStore

variable {σ : Type} [BlockStore σ]

/-- The loop that copies `length` bytes from `offset` on, block by block, with at most `n` rounds left; `logicalBlock` finds
the block of the store for a block of the file. -/
def copyRange {ε : Type} (missing : ε) (wrap : BlockError → ε) (logicalBlock : ℕ → Option ℕ) :
    ℕ → ℕ → ℕ → Op σ ε (List UInt8)
  | 0, _, _ => Op.ret []
  | n + 1, offset, length =>
    if length = 0 then Op.ret []
    else do
      let blockOffset := offset % blockBytes
      let amount := min length (blockBytes - blockOffset)
      let physical ← Op.orFail (logicalBlock (offset / blockBytes)) missing
      let block ← (readBlock physical).mapErr wrap
      let rest ← copyRange missing wrap logicalBlock n (offset + amount) (length - amount)
      Op.ret (slice block.toList blockOffset (blockOffset + amount) ++ rest)

/-- The reader of a package of `len` bytes: that of an installed package and that of one being installed. -/
def blockReader (len : ℕ) (logicalBlock : ℕ → Option ℕ) : PackageReader σ where
  len := len
  read offset length :=
    if (checkedAdd offset length).all (· > len) then Op.fail .reader
    else copyRange .reader (fun _ => .reader) logicalBlock length offset length

def recordReader (record : PackageRecord) : PackageReader σ := blockReader record.bytes record.logicalBlock

def installReader (install : PackageInstall) : PackageReader σ := blockReader install.bytes install.logicalBlock

def readPackageExact (reader : PackageReader σ) (offset length : ℕ) : Op σ PackageCatalogError (List UInt8) := do
  let stop ← Op.orFail (checkedAdd offset length) .invalidRecord
  Op.guard (stop ≤ reader.len) .invalidRecord
  let bytes ← (reader.read offset length).mapErr .format
  Op.guard (bytes.length == length) .invalidRecord
  Op.ret bytes

def validateInstall (reader : PackageReader σ) (target : PackageKey) : Op σ PackageCatalogError ValidatedPackage := do
  Op.guard (!decide (reader.len < 10)) (.format .headerTooSmall)
  let front ← readPackageExact reader 0 10
  if getLe front 8 2 = packageFormatVersionV2 then do
    Op.guard (!decide (reader.len < packageHeaderV2Bytes)) (.format .headerTooSmall)
    let header ← (validatePackageV2 reader blockBytes).mapErr .format
    Op.guard ((PackageKey.fromManifest header.manifest).toOption == some target) .unsupported
    Op.ret ⟨header.payloadLength, 0, header.payloadCrc32c, packageHeaderV2Bytes, some header.manifest⟩
  else
    match target with
    | .program _ => Op.fail .unsupported
    | .service service => do
      let header ← (validatePackage reader service abiVersion blockBytes).mapErr .format
      Op.ret ⟨header.payloadLength, header.packageVersion, header.payloadCrc32c, packageHeaderBytes, none⟩

def validateInstallOnStore (install : PackageInstall) : Op σ PackageCatalogError ValidatedPackage :=
  validateInstall (installReader install) install.target

/-- The manifest of an installed package, none for one in the first format. -/
def manifestWithStore (record : PackageRecord) : Op σ PackageCatalogError (Option PackageManifest) := do
  let reader := recordReader record
  Op.guard (!decide (reader.len < 10)) .invalidRecord
  let front ← readPackageExact reader 0 10
  if getLe front 8 2 ≠ packageFormatVersionV2 then Op.ret none
  else do
    let header ← (validatePackageV2 reader blockBytes).mapErr .format
    Op.guard ((PackageKey.fromManifest header.manifest).toOption == some record.target &&
      reader.len == packageHeaderV2Bytes + header.payloadLength) .invalidRecord
    Op.ret (some header.manifest)

namespace PackageCatalog

def lookupWithStore (catalog : PackageCatalog) (target : PackageKey) : Op σ PackageCatalogError PackageInfo := do
  let record ← Op.orFail (catalog.find target) .stale
  let manifest ← manifestWithStore record
  Op.ret { record.info with manifest := manifest }

/-- The search for the installed manifest of the target; a package under another target may not have the new name. -/
def findCurrent (target : PackageKey) (name : PackageName) :
    Option PackageManifest → List PackageRecord → Op σ PackageCatalogError (Option PackageManifest)
  | current, [] => Op.ret current
  | current, record :: records => do
    let installed ← manifestWithStore record
    let current := if record.target = target then installed else current
    Op.guard (!(record.target != target && installed.any fun installed => installed.name == name)) .dependencyConflict
    findCurrent target name current records

/-- The version of the package that provides a dependency. -/
def findProvider (target : PackageKey) (name : PackageName) :
    List PackageRecord → Op σ PackageCatalogError (Option SemanticVersion)
  | [] => Op.ret none
  | record :: records =>
    if record.target = target then findProvider target name records
    else do
      match ← manifestWithStore record with
      | some installed =>
        if installed.name = name then Op.ret (some installed.version) else findProvider target name records
      | none => findProvider target name records

/-- The dependency has a matching provider among the installed packages. -/
def checkDependency (catalog : PackageCatalog) (target : PackageKey) (manifest : PackageManifest)
    (dependency : PackageDependency) : Op σ PackageCatalogError Unit := do
  Op.guard (dependency.name != manifest.name) .dependencyConflict
  let version ← (do Op.orFail (← findProvider target dependency.name catalog.live) .missingDependency)
  Op.guard ((dependency.matchesVersion version).toOption == some true) .dependencyConflict

/-- An installed package that depends on the new one accepts its version. -/
def checkDependent (target : PackageKey) (manifest : PackageManifest) (record : PackageRecord) :
    Op σ PackageCatalogError Unit :=
  if record.target = target then Op.ret ()
  else do
    match ← manifestWithStore record with
    | none => Op.ret ()
    | some installed =>
      Op.forEach (fun dependency => Op.guard (!(dependency.name == manifest.name &&
        (dependency.matchesVersion manifest.version).toOption != some true)) .dependencyConflict) installed.dependencies

def validateInstallPolicy (catalog : PackageCatalog) (target : PackageKey) (package : ValidatedPackage) :
    Op σ PackageCatalogError Unit :=
  match package.manifest with
  | some manifest => do
    let current ← findCurrent target manifest.name none catalog.live
    Op.guard (!(current.any fun current => manifest.version.ble current.version)) .versionConflict
    Op.guard (!(current.any fun current => current.name != manifest.name)) .dependencyConflict
    Op.forEach (catalog.checkDependency target manifest) manifest.dependencies
    Op.forEach (checkDependent target manifest) catalog.live
  | none =>
    match catalog.find target with
    | none => Op.ret ()
    | some current => do
      Op.guard (!(← manifestWithStore current).isSome) .versionConflict
      Op.guard (!decide (package.packageVersion ≤ current.packageVersion)) .versionConflict

end PackageCatalog

end OnStore

end LogOS.StorageService
