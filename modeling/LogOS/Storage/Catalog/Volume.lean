import LogOS.Lib.Bitset
import LogOS.Lib.Extent
import LogOS.Storage.Catalog.Format

/-!
# System catalog volumes

The program: formatting and opening a volume, replacing its catalog or its metadata, and the transactions of the
storage service, over any block store.  A method that takes `&mut self` and changes the volume only when it succeeds
is an operation on the store that returns the volume after the call; `replace_catalog`, which may also adopt a recovered
volume and then fail, works on the volume together with the store.
-/

namespace LogOS.Storage.Catalog

open Lib

inductive CowError where
  | block (e : BlockError)
  | notBlank
  | unformatted
  | provisionedBlank
  | unsupportedVersion
  | corrupt
  | tooSmall
  | tooLarge
  | outOfSpace
  | invalidRequest
  | generationExhausted
  | retiredExtentCapacity
  deriving DecidableEq, Repr

def catalogToCow : CatalogError → CowError
  | .block e => .block e
  | .outOfSpace => .outOfSpace
  | .generationExhausted => .generationExhausted
  | .tooLarge => .tooLarge
  | .invalidRequest => .invalidRequest
  | .notBlank => .notBlank
  | .unformatted => .unformatted
  | .provisionedBlank => .provisionedBlank
  | .unsupportedVersion => .unsupportedVersion
  | .corrupt => .corrupt
  | .tooSmall => .tooSmall

abbrev CowExtent : Type := Extent

def cowMaxRetiredExtents : ℕ := 128
def cowMaxTransactionExtents : ℕ := 256
def maxRecordBytes : ℕ := maxBlockCount * blockBytes

/-! ## Bitmaps -/

def bitmapPosition (index : ℕ) : ℕ × ℕ × ℕ := (index / (blockBytes * 8), index / 8 % blockBytes, index % 8)

/-- The array of bitmap blocks has one block; an index past it is a panic of the source, and no caller passes one. -/
def bitmapIsSet (bitmap : Block) (index : ℕ) : Bool :=
  let (block, byte, bit) := bitmapPosition index
  block == 0 && bitmap.bit (8 * byte + bit)

def bitmapSet (bitmap : Block) (index : ℕ) (value : Bool) : Block :=
  let (block, byte, bit) := bitmapPosition index
  if block = 0 then bitmap.setBit (8 * byte + bit) value else bitmap

/-- The loop that sets or clears the bits of an extent. -/
def bitmapSetExtent (value : Bool) (bitmap : Block) (extent : Extent) : Block :=
  (List.range' extent.start extent.blocks).foldl (fun b i => bitmapSet b i value) bitmap

def allocateInArena (bitmap : Block) (arena : ℕ × ℕ) (blocks : ℕ) : Except CatalogError ℕ :=
  match firstFit (bitmapIsSet bitmap) blocks (arena.2 - arena.1) arena.1 none 0 with
  | some start => .ok start
  | none => .error .outOfSpace

def bitmapBlock (root : SystemCatalogRoot) : ℕ := root.bitmapStart + root.bitmapSlot

/-! ## Reading and writing the records -/

variable {σ : Type} [BlockStore σ]

/-- A block operation inside of the catalog code: `?` turns its errors into `CatalogError::Block`. -/
def io {α : Type} (m : Op σ BlockError α) : Op σ CatalogError α := m.mapErr .block

def readBitmap (root : SystemCatalogRoot) : Op σ CatalogError Block := io (readBlock (bitmapBlock root))

def writeBitmap (root : SystemCatalogRoot) (bitmap : Block) : Op σ CatalogError Unit :=
  io (writeBlock (bitmapBlock root) bitmap)

/-- Reading a block back, and writing it again when it is not what it should be, `attempts` times. -/
def verifyBlock (index : ℕ) (expected : Block) : ℕ → Op σ CatalogError Unit
  | 0 => Op.fail (.block .io)
  | attempts + 1 => do
    let actual ← io (readBlockUncached index)
    if actual = expected then Op.ret ()
    else if attempts = 0 then Op.fail (.block .io)
    else do
      io (writeBlock index expected)
      io flush
      verifyBlock index expected attempts

def verifyBitmap (root : SystemCatalogRoot) (expected : Block) : Op σ CatalogError Unit :=
  verifyBlock (bitmapBlock root) expected writeVerifyAttempts

/-- The part of a byte string that goes to its block `offset`. -/
def chunk (snapshot : List UInt8) (offset : ℕ) : List UInt8 :=
  slice snapshot (offset * blockBytes) (min (offset * blockBytes + blockBytes) snapshot.length)

/-- The block `offset` of a byte string, filled up with zeros. -/
def chunkBlock (snapshot : List UInt8) (offset : ℕ) : Block := Block.zero.splice 0 (chunk snapshot offset)

def writeChunks (start : ℕ) (snapshot : List UInt8) (blocks : ℕ) : Op σ CatalogError Unit :=
  Op.forRange (fun offset => io (writeBlock (start + offset) (chunkBlock snapshot offset))) 0 blocks

def verifyCatalog (root : SystemCatalogRoot) (expected : List UInt8) : Op σ CatalogError Unit :=
  Op.forRange (fun offset => verifyBlock (root.catalogStart + offset) (chunkBlock expected offset)
    writeVerifyAttempts) 0 root.catalogBlocks

def verifyMetadata (root : SystemCatalogRoot) (expected : List UInt8) : Op σ CatalogError Unit :=
  Op.forRange (fun offset => do
    let actual ← io (readBlockUncached (root.metadataStart + offset))
    if slice actual.toList 0 (chunk expected offset).length ≠ chunk expected offset then Op.fail (.block .io)
    else Op.ret ()) 0 root.metadataBlocks

def verifyExtent (extent : CowExtent) : Op σ CatalogError Unit :=
  Op.forRange (fun offset => do
    let _ ← io (readBlockUncached (extent.start + offset))
    Op.ret ()) 0 extent.blocks

def writeSuperblock (index : ℕ) (root : SystemCatalogRoot) : Op σ CatalogError Unit :=
  io (writeBlock index (encodeRoot root))

def verifySuperblock (index : ℕ) (root : SystemCatalogRoot) : Op σ CatalogError Unit := do
  let actual ← io (readBlockUncached index)
  if actual ≠ encodeRoot root then Op.fail (.block .io) else Op.ret ()

def readSuperblock (index : ℕ) : Op σ CatalogError (Option SystemCatalogRoot) := do
  let block ← io (readBlock index)
  Op.lift (decodeRoot block)

def writeCommit (slot : ℕ) (commit : CommitRecord) : Op σ CatalogError Unit :=
  io (writeBlock (commitStart + slot) (encodeCommit commit))

def readCommit (slot : ℕ) : Op σ CatalogError (Option CommitRecord) := do
  let block ← io (readBlock (commitStart + slot))
  Op.lift (decodeCommit block)

def ensureBlank (provisioned : Bool) : Op σ CatalogError Unit := do
  let first ← io (readBlock superblockA)
  if provisioned then
    if slice first.toList 0 8 ≠ cowProvisionedBlankMagic ∨ ¬ (first.toList.drop 8).all (· == 0) then
      Op.fail .notBlank
    else Op.ret ()
  else do
    let store ← Op.get
    Op.forRange (fun index => do
      let block ← io (readBlock index)
      if ¬ block.toList.all (· == 0) then Op.fail .notBlank else Op.ret ()) 0 (blockCount store)

/-! ## Volumes -/

structure SystemCatalogVolume where
  root : SystemCatalogRoot
  activeSuperblock : ℕ
  deriving DecidableEq, Repr

namespace SystemCatalogVolume

def systemArena (v : SystemCatalogVolume) : ℕ × ℕ := (v.root.systemStart, v.root.systemEnd)
def userArena (v : SystemCatalogVolume) : ℕ × ℕ := (v.root.userStart, v.root.userEnd)
def packageArena (v : SystemCatalogVolume) : ℕ × ℕ := (v.root.packageStart, v.root.packageEnd)

def formatInner (systemBlocks packageStart : ℕ) (provisioned : Bool) : Op σ CatalogError SystemCatalogVolume := do
  let store ← Op.get
  let dataEnd ← Op.lift (validateCapacity (blockCount store))
  Op.lift (validatePools (blockCount store) dataEnd systemBlocks packageStart)
  ensureBlank provisioned
  let root ← Op.lift (emptyRoot (blockCount store) dataEnd systemBlocks packageStart)
  writeBitmap root Block.zero
  io flush
  writeSuperblock superblockA root
  io flush
  verifySuperblock superblockA root
  writeSuperblock superblockB root
  io flush
  verifySuperblock superblockB root
  Op.ret ⟨root, 1⟩

def format (systemBlocks packageStart : ℕ) : Op σ CatalogError SystemCatalogVolume :=
  formatInner systemBlocks packageStart false

def formatProvisioned (systemBlocks packageStart : ℕ) : Op σ CatalogError SystemCatalogVolume :=
  formatInner systemBlocks packageStart true

/-- The choice of `open` between what it read from the two superblocks. -/
def chooseSuperblock : Except CatalogError (Option SystemCatalogRoot) → Except CatalogError (Option SystemCatalogRoot) →
    Except CatalogError (SystemCatalogRoot × ℕ)
  | .ok (some a), .ok (some b) => if b.generation > a.generation then .ok (b, 1) else .ok (a, 0)
  | .ok (some a), _ => .ok (a, 0)
  | _, .ok (some b) => .ok (b, 1)
  | .ok none, .ok none => .error .unformatted
  | .error e, .ok none => .error e
  | .ok none, .error e => .error e
  | .error e, .error _ => .error e

/-- One round of the search of `open` for the newest commit record: `candidate` is the best one so far. -/
def considerCommit (root : SystemCatalogRoot) (candidate : Option CommitRecord) (commit : CommitRecord) :
    Option CommitRecord :=
  if commit.generation > root.generation ∧ candidate.all (fun current => commit.generation > current.generation) ∧
      validateCommit root commit = .ok () then some commit
  else candidate

/-- The loop over the commit slots; a corrupt record is passed over, any other error ends `open`. -/
def findCommit (root : SystemCatalogRoot) (candidate : Option CommitRecord) :
    List ℕ → Op σ CatalogError (Option CommitRecord)
  | [] => Op.ret candidate
  | slot :: slots => do
    match ← Op.attempt (readCommit slot) with
    | .ok (some commit) => findCommit root (considerCommit root candidate commit) slots
    | .ok none => findCommit root candidate slots
    | .error .corrupt => findCommit root candidate slots
    | .error e => Op.fail e

def openVolume : Op σ CatalogError SystemCatalogVolume := do
  let store ← Op.get
  let dataEnd ← Op.lift (validateCapacity (blockCount store))
  let first ← Op.attempt (readSuperblock superblockA)
  let second ← Op.attempt (readSuperblock superblockB)
  let (root, active) ← Op.lift (chooseSuperblock first second)
  Op.lift (validateRoot root (blockCount store) dataEnd)
  match ← findCommit root none (List.range commitSlots) with
  | none => Op.ret ⟨root, active⟩
  | some commit => do
    let target := if active = 0 then superblockB else superblockA
    writeSuperblock target (root.adopt commit)
    io flush
    verifySuperblock target (root.adopt commit)
    Op.ret ⟨root.adopt commit, active ^^^ 1⟩

/-- The loop that copies the published blocks into the caller's buffer, from block `offset` on. -/
def copyBlocks (start bytes : ℕ) : ℕ → ℕ → Op σ CatalogError (List UInt8)
  | _, 0 => Op.ret []
  | offset, n + 1 => do
    let block ← io (readBlock (start + offset))
    let rest ← copyBlocks start bytes (offset + 1) n
    Op.ret (slice block.toList 0 (min (offset * blockBytes + blockBytes) bytes - offset * blockBytes) ++ rest)

/-- Reading a published extent into a buffer of `capacity` bytes; the result is what is put into the buffer. -/
def readExtent (start blocks bytes capacity : ℕ) : Op σ CatalogError (List UInt8) :=
  if blocks = 0 then Op.fail .unformatted
  else if bytes > capacity ∨ bytes > blocks * blockBytes then Op.fail .invalidRequest
  else copyBlocks start bytes 0 blocks

def readCatalog (v : SystemCatalogVolume) (capacity : ℕ) : Op σ CatalogError (List UInt8) :=
  readExtent v.root.catalogStart v.root.catalogBlocks v.root.catalogBytes capacity

def readMetadata (v : SystemCatalogVolume) (capacity : ℕ) : Op σ CatalogError (List UInt8) :=
  readExtent v.root.metadataStart v.root.metadataBlocks v.root.metadataBytes capacity

/-- The end of every publication, the same in `replace_catalog_inner`, `replace_metadata` and `commit`: the bitmap of the
new root goes to the other slot, is flushed and verified together with the data, and only then do the commit record and
the other superblock follow, each flushed by itself. -/
def publish (v : SystemCatalogVolume) (root : SystemCatalogRoot) (bitmap : Block) (verifyData : Op σ CatalogError Unit) :
    Op σ CatalogError SystemCatalogVolume := do
  writeBitmap root bitmap
  io flush
  verifyData
  verifyBitmap root bitmap
  writeCommit (root.generation % commitSlots) root.commitRecord
  io flush
  let target := if v.activeSuperblock = 0 then superblockB else superblockA
  writeSuperblock target root
  io flush
  verifySuperblock target root
  Op.ret ⟨root, v.activeSuperblock ^^^ 1⟩

/-- `snapshot.len().div_ceil(BLOCK_BYTES)` -/
def blocksFor (bytes : ℕ) : ℕ := (bytes + blockBytes - 1) / blockBytes

def replaceCatalogInner (v : SystemCatalogVolume) (snapshot : List UInt8) : Op σ CatalogError SystemCatalogVolume := do
  Op.guard (!(snapshot.isEmpty || snapshot.length > systemCatalogMaxBytes)) .invalidRequest
  let blocks := blocksFor snapshot.length
  Op.guard (!(blocks == 0 || blocks > systemCatalogMaxBlocks)) .tooLarge
  let bitmap ← readBitmap v.root
  let extent ← Op.lift (allocateInArena bitmap v.systemArena blocks)
  writeChunks extent snapshot blocks
  let bitmap := bitmapSetExtent true bitmap ⟨extent, blocks⟩
  let bitmap := bitmapSetExtent false bitmap ⟨v.root.catalogStart, v.root.catalogBlocks⟩
  let generation ← Op.orFail (checkedAdd v.root.generation 1) .generationExhausted
  let root := { v.root with
    generation := generation, catalogStart := extent, catalogBlocks := blocks, catalogBytes := snapshot.length
    bitmapSlot := 1 - v.root.bitmapSlot }
  publish v root bitmap (verifyCatalog root snapshot)

def replaceMetadata (v : SystemCatalogVolume) (snapshot : List UInt8) : Op σ CatalogError SystemCatalogVolume := do
  Op.guard (!(snapshot.isEmpty || snapshot.length > maxRecordBytes)) .invalidRequest
  let blocks := blocksFor snapshot.length
  let bitmap ← readBitmap v.root
  let extent ← Op.lift (allocateInArena bitmap v.systemArena blocks)
  writeChunks extent snapshot blocks
  let bitmap := bitmapSetExtent true bitmap ⟨extent, blocks⟩
  let bitmap := bitmapSetExtent false bitmap ⟨v.root.metadataStart, v.root.metadataBlocks⟩
  let generation ← Op.orFail (checkedAdd v.root.generation 1) .generationExhausted
  let root := { v.root with
    generation := generation, metadataStart := extent, metadataBlocks := blocks, metadataBytes := snapshot.length
    bitmapSlot := 1 - v.root.bitmapSlot }
  publish v root bitmap (verifyMetadata root snapshot)

end SystemCatalogVolume

/-- A volume and the store it is on.  `lost` is a history variable, read by no operation: a failed call tried to recover the
volume from the store, and that failed as well. -/
structure Mounted (σ : Type) where
  volume : SystemCatalogVolume
  store : σ
  lost : Bool

namespace Mounted

/-- An operation on the store alone. -/
def onStore {ε α : Type} (m : Op σ ε α) : Op (Mounted σ) ε α :=
  Op.zoom Mounted.store (fun m s => { m with store := s }) m

/-- A call that replaces the volume when it succeeds. -/
def update {ε : Type} (call : SystemCatalogVolume → Op σ ε SystemCatalogVolume) : Op (Mounted σ) ε ℕ := do
  let m ← Op.get
  let volume ← onStore (call m.volume)
  Op.modify fun m => { m with volume := volume }
  Op.ret volume.root.generation

/-- The errors of a publication after which `replace_catalog` looks at the store again. -/
def recoverable : CatalogError → Bool
  | .block _ => true
  | .corrupt => true
  | _ => false

def replaceCatalog (snapshot : List UInt8) : Op (Mounted σ) CatalogError ℕ := do
  let before ← Op.get
  match ← Op.attempt (update fun v => v.replaceCatalogInner snapshot) with
  | .ok generation => Op.ret generation
  | .error e =>
    if recoverable e then do
      let recovered ← (onStore SystemCatalogVolume.openVolume).onError fun m => { m with lost := true }
      Op.modify fun m => { m with volume := recovered }
      if recovered.root.generation > before.volume.root.generation then Op.ret recovered.root.generation
      else Op.fail e
    else Op.fail e

def replaceMetadata (snapshot : List UInt8) : Op (Mounted σ) CatalogError ℕ := update fun v => v.replaceMetadata snapshot

end Mounted

/-! ## Transactions -/

structure SystemCatalogTransaction where
  root : SystemCatalogRoot
  bitmap : Block
  bitmapSlot : ℕ
  allocated : List CowExtent
  released : List CowExtent

def extentInArena (extent : CowExtent) (arena : ℕ × ℕ) : Bool :=
  extent.blocks != 0 && extent.start ≥ arena.1 && (checkedAdd extent.start extent.blocks).any (· ≤ arena.2)

namespace SystemCatalogTransaction

def recordAllocated (t : SystemCatalogTransaction) (extent : CowExtent) : Except CowError SystemCatalogTransaction :=
  if t.allocated.length = cowMaxTransactionExtents then .error .retiredExtentCapacity
  else .ok { t with allocated := t.allocated ++ [extent] }

/-- The block is taken: by the volume, or by what this transaction allocated or released. -/
def occupied (t : SystemCatalogTransaction) (index : ℕ) : Bool :=
  bitmapIsSet t.bitmap index || t.allocated.any (fun e => e.Covers index) || t.released.any (fun e => e.Covers index)

def allocateInArena (t : SystemCatalogTransaction) (blocks : ℕ) (arena : ℕ × ℕ) :
    Except CowError (CowExtent × SystemCatalogTransaction) :=
  if blocks = 0 ∨ arena.1 ≥ arena.2 then .error .invalidRequest
  else
    match firstFit t.occupied blocks (arena.2 - arena.1) arena.1 none 0 with
    | none => .error .outOfSpace
    | some start => do
      let t ← t.recordAllocated ⟨start, blocks⟩
      .ok (⟨start, blocks⟩, t)

def allocateBlocks (t : SystemCatalogTransaction) (blocks : ℕ) : Except CowError (CowExtent × SystemCatalogTransaction) :=
  t.allocateInArena blocks (t.root.userStart, t.root.userEnd)

def allocateMetadataBlocks (t : SystemCatalogTransaction) (blocks : ℕ) :
    Except CowError (CowExtent × SystemCatalogTransaction) :=
  t.allocateInArena blocks (t.root.systemStart, t.root.systemEnd)

def reserveExtent (t : SystemCatalogTransaction) (extent : CowExtent) : Except CowError SystemCatalogTransaction :=
  if ¬ extentInArena extent (t.root.systemStart, t.root.packageEnd) then .error .invalidRequest
  else t.recordAllocated extent

def retireExtent (t : SystemCatalogTransaction) (extent : CowExtent) : Except CowError SystemCatalogTransaction :=
  if ¬ extentInArena extent (t.root.systemStart, t.root.packageEnd) ∨ t.released.length = cowMaxRetiredExtents then
    .error .invalidRequest
  else .ok { t with released := t.released ++ [extent] }

def containsAllocated (t : SystemCatalogTransaction) (target : CowExtent) : Bool := t.allocated.contains target

def writeBlock (t : SystemCatalogTransaction) (index : ℕ) (block : Block) : Op σ CowError Unit :=
  if ¬ t.allocated.any (fun e => e.Covers index) then Op.fail .invalidRequest
  else (Storage.writeBlock index block).mapErr .block

/-- The bitmap that a commit of the transaction publishes. -/
def finalBitmap (t : SystemCatalogTransaction) : Block :=
  t.allocated.foldl (bitmapSetExtent true) (t.released.foldl (bitmapSetExtent false) t.bitmap)

end SystemCatalogTransaction

namespace SystemCatalogVolume

def begin (v : SystemCatalogVolume) : Op σ CowError SystemCatalogTransaction := do
  let bitmap ← (readBitmap v.root).mapErr catalogToCow
  Op.ret ⟨v.root, bitmap, 1 - v.root.bitmapSlot, [], []⟩

def commit (v : SystemCatalogVolume) (t : SystemCatalogTransaction) (metadata : CowExtent) (metadataBytes : ℕ) :
    Op σ CowError SystemCatalogVolume := do
  Op.guard (!(t.root != v.root || metadata.blocks == 0 || metadataBytes == 0 ||
    metadataBytes > metadata.blocks * blockBytes || !extentInArena metadata v.systemArena ||
    !t.containsAllocated metadata)) .invalidRequest
  let bitmap := t.finalBitmap
  let generation ← Op.orFail (checkedAdd v.root.generation 1) .generationExhausted
  let root := { v.root with
    generation := generation, metadataStart := metadata.start, metadataBlocks := metadata.blocks
    metadataBytes := metadataBytes, bitmapSlot := t.bitmapSlot }
  (publish v root bitmap (Op.forEach verifyExtent t.allocated)).mapErr catalogToCow

end SystemCatalogVolume

end LogOS.Storage.Catalog
