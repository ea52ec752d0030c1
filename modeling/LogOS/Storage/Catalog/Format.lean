import LogOS.Storage.Block
import Mathlib.Tactic.IntervalCases

/-!
# The on-disk records of a system catalog volume

A volume of format 5 keeps two superblocks, two commit records and two bitmap slots.  This module has the byte layout
of the first two, their decoders with the error each malformed block gives, and the validation of a root and of a
commit record against the geometry of the store.  The main results are the two round trips: a root or a commit record
that fits its fields is read back exactly, whatever the checksum function.
-/

namespace LogOS.Storage.Catalog

open Lib

inductive CatalogError where
  | block (e : BlockError)
  | notBlank
  | unformatted
  | provisionedBlank
  | unsupportedVersion
  | corrupt
  | tooSmall
  | tooLarge
  | outOfSpace
  | invalidRequest
  | generationExhausted
  deriving DecidableEq, Repr

def systemCatalogFormatVersion : ℕ := 5
def systemCatalogMaxBlocks : ℕ := 16
def systemCatalogMaxBytes : ℕ := systemCatalogMaxBlocks * blockBytes
def superblockA : ℕ := 0
def superblockB : ℕ := 1
def commitStart : ℕ := 2
def commitSlots : ℕ := 2
def dataStart : ℕ := commitStart + commitSlots
def checksumOffset : ℕ := 160
def commitChecksumOffset : ℕ := 64
def cowMaxBitmapBlocks : ℕ := 1
def maxBlockCount : ℕ := cowMaxBitmapBlocks * blockBytes * 8
def writeVerifyAttempts : ℕ := 3
/-- `LOGOSCOW` -/
def cowSuperblockMagic : List UInt8 := [0x4c, 0x4f, 0x47, 0x4f, 0x53, 0x43, 0x4f, 0x57]
/-- `LOGOSBLK` -/
def cowProvisionedBlankMagic : List UInt8 := [0x4c, 0x4f, 0x47, 0x4f, 0x53, 0x42, 0x4c, 0x4b]
/-- `LOGOSFS` and a zero -/
def legacyMagic : List UInt8 := [0x4c, 0x4f, 0x47, 0x4f, 0x53, 0x46, 0x53, 0x00]
/-- `LOSC` -/
def commitMagic : List UInt8 := [0x4c, 0x4f, 0x53, 0x43]

structure SystemCatalogRoot where
  generation : ℕ
  metadataStart : ℕ
  metadataBlocks : ℕ
  metadataBytes : ℕ
  catalogStart : ℕ
  catalogBlocks : ℕ
  catalogBytes : ℕ
  bitmapSlot : ℕ
  bitmapStart : ℕ
  bitmapBlocks : ℕ
  systemStart : ℕ
  systemEnd : ℕ
  userStart : ℕ
  userEnd : ℕ
  packageStart : ℕ
  packageEnd : ℕ
  deriving DecidableEq, Repr

structure CommitRecord where
  generation : ℕ
  metadataStart : ℕ
  metadataBlocks : ℕ
  metadataBytes : ℕ
  catalogStart : ℕ
  catalogBlocks : ℕ
  catalogBytes : ℕ
  bitmapSlot : ℕ
  deriving DecidableEq, Repr

/-- The commit record that publishes a root. -/
def SystemCatalogRoot.commitRecord (root : SystemCatalogRoot) : CommitRecord where
  generation := root.generation
  metadataStart := root.metadataStart
  metadataBlocks := root.metadataBlocks
  metadataBytes := root.metadataBytes
  catalogStart := root.catalogStart
  catalogBlocks := root.catalogBlocks
  catalogBytes := root.catalogBytes
  bitmapSlot := root.bitmapSlot

/-- The root with the fields of a commit record in the place of its own; the geometry stays. -/
def SystemCatalogRoot.adopt (root : SystemCatalogRoot) (commit : CommitRecord) : SystemCatalogRoot :=
  { root with
    generation := commit.generation
    metadataStart := commit.metadataStart
    metadataBlocks := commit.metadataBlocks
    metadataBytes := commit.metadataBytes
    catalogStart := commit.catalogStart
    catalogBlocks := commit.catalogBlocks
    catalogBytes := commit.catalogBytes
    bitmapSlot := commit.bitmapSlot }

/-- `u64::checked_add` -/
def checkedAdd (a b : ℕ) : Option ℕ := if a + b < 2 ^ 64 then some (a + b) else none

lemma checkedAdd_eq_some {a b c : ℕ} : checkedAdd a b = some c ↔ a + b < 2 ^ 64 ∧ c = a + b := by
  unfold checkedAdd
  split
  · simp_all [eq_comm]
  · simp_all

/-! ## The checksum -/

def crcBit (crc : UInt32) : UInt32 := (crc >>> 1) ^^^ (0x82f63b78 &&& (0 - (crc &&& 1)))

def crcByte (crc : UInt32) (byte : UInt8) : UInt32 := Nat.iterate crcBit 8 (crc ^^^ byte.toUInt32)

def crc32c (bytes : List UInt8) : UInt32 := ~~~ (bytes.foldl crcByte (~~~ 0))

/-! ## Superblocks -/

/-- The fields of a superblock, before the checksum is put in. -/
def rootFields (root : SystemCatalogRoot) : Block :=
  let bytes := Block.zero.splice 0 cowSuperblockMagic
  let bytes := putLe bytes 8 2 systemCatalogFormatVersion
  let bytes := putLe bytes 16 8 root.generation
  let bytes := putLe bytes 24 8 root.metadataStart
  let bytes := putLe bytes 32 4 root.metadataBlocks
  let bytes := putLe bytes 36 4 root.metadataBytes
  let bytes := putLe bytes 40 8 root.catalogStart
  let bytes := putLe bytes 48 4 root.catalogBlocks
  let bytes := putLe bytes 52 4 root.catalogBytes
  let bytes := putLe bytes 56 1 root.bitmapSlot
  let bytes := putLe bytes 64 8 root.bitmapStart
  let bytes := putLe bytes 72 2 root.bitmapBlocks
  let bytes := putLe bytes 80 8 root.systemStart
  let bytes := putLe bytes 88 8 root.systemEnd
  let bytes := putLe bytes 96 8 root.userStart
  let bytes := putLe bytes 104 8 root.userEnd
  let bytes := putLe bytes 112 8 root.packageStart
  let bytes := putLe bytes 120 8 root.packageEnd
  putLe bytes checksumOffset 4 0

def encodeRoot (root : SystemCatalogRoot) : Block :=
  let bytes := rootFields root
  putLe bytes checksumOffset 4 (crc32c (slice bytes.toList 0 checksumOffset)).toNat

/-- The root in the fields of a superblock. -/
def rootOfBytes (bytes : List UInt8) : SystemCatalogRoot where
  generation := getLe bytes 16 8
  metadataStart := getLe bytes 24 8
  metadataBlocks := getLe bytes 32 4
  metadataBytes := getLe bytes 36 4
  catalogStart := getLe bytes 40 8
  catalogBlocks := getLe bytes 48 4
  catalogBytes := getLe bytes 52 4
  bitmapSlot := getLe bytes 56 1
  bitmapStart := getLe bytes 64 8
  bitmapBlocks := getLe bytes 72 2
  systemStart := getLe bytes 80 8
  systemEnd := getLe bytes 88 8
  userStart := getLe bytes 96 8
  userEnd := getLe bytes 104 8
  packageStart := getLe bytes 112 8
  packageEnd := getLe bytes 120 8

def decodeRoot (block : Block) : Except CatalogError (Option SystemCatalogRoot) :=
  let bytes := block.toList
  if bytes.all (· == 0) then .ok none
  else if slice bytes 0 8 ≠ cowSuperblockMagic then
    if slice bytes 0 8 = cowProvisionedBlankMagic ∧ (bytes.drop 8).all (· == 0) then .error .provisionedBlank
    else if slice bytes 0 8 = legacyMagic then .error .unsupportedVersion
    else .error .corrupt
  else if getLe bytes 8 2 ≠ systemCatalogFormatVersion then .error .unsupportedVersion
  else
    let copy := putLe block checksumOffset 4 0
    if (crc32c (slice copy.toList 0 checksumOffset)).toNat ≠ getLe bytes checksumOffset 4 then .error .corrupt
    else .ok (some (rootOfBytes bytes))

/-! ## Commit records -/

/-- The fields of a commit block, before the checksum is put in. -/
def commitFields (commit : CommitRecord) : Block :=
  let bytes := Block.zero.splice 0 commitMagic
  let bytes := putLe bytes 8 8 commit.generation
  let bytes := putLe bytes 16 8 commit.metadataStart
  let bytes := putLe bytes 24 4 commit.metadataBlocks
  let bytes := putLe bytes 28 4 commit.metadataBytes
  let bytes := putLe bytes 32 8 commit.catalogStart
  let bytes := putLe bytes 40 4 commit.catalogBlocks
  let bytes := putLe bytes 44 4 commit.catalogBytes
  let bytes := putLe bytes 48 1 commit.bitmapSlot
  putLe bytes commitChecksumOffset 4 0

/-- The block that `write_commit` stores. -/
def encodeCommit (commit : CommitRecord) : Block :=
  let bytes := commitFields commit
  putLe bytes commitChecksumOffset 4 (crc32c (slice bytes.toList 0 commitChecksumOffset)).toNat

def commitOfBytes (bytes : List UInt8) : CommitRecord where
  generation := getLe bytes 8 8
  metadataStart := getLe bytes 16 8
  metadataBlocks := getLe bytes 24 4
  metadataBytes := getLe bytes 28 4
  catalogStart := getLe bytes 32 8
  catalogBlocks := getLe bytes 40 4
  catalogBytes := getLe bytes 44 4
  bitmapSlot := getLe bytes 48 1

/-- The part of `read_commit` after the block is read. -/
def decodeCommit (block : Block) : Except CatalogError (Option CommitRecord) :=
  let bytes := block.toList
  if bytes.all (· == 0) then .ok none
  else if slice bytes 0 4 ≠ commitMagic then .error .corrupt
  else
    let copy := putLe block commitChecksumOffset 4 0
    if (crc32c (slice copy.toList 0 commitChecksumOffset)).toNat ≠ getLe bytes commitChecksumOffset 4 then
      .error .corrupt
    else .ok (some (commitOfBytes bytes))

/-! ## The records are read back -/

/-- Every field of the root fits its place in a superblock. -/
structure SystemCatalogRoot.Fits (r : SystemCatalogRoot) : Prop where
  generation : r.generation < 2 ^ 64
  metadataStart : r.metadataStart < 2 ^ 64
  metadataBlocks : r.metadataBlocks < 2 ^ 32
  metadataBytes : r.metadataBytes < 2 ^ 32
  catalogStart : r.catalogStart < 2 ^ 64
  catalogBlocks : r.catalogBlocks < 2 ^ 32
  catalogBytes : r.catalogBytes < 2 ^ 32
  bitmapSlot : r.bitmapSlot < 2 ^ 8
  bitmapStart : r.bitmapStart < 2 ^ 64
  bitmapBlocks : r.bitmapBlocks < 2 ^ 16
  systemStart : r.systemStart < 2 ^ 64
  systemEnd : r.systemEnd < 2 ^ 64
  userStart : r.userStart < 2 ^ 64
  userEnd : r.userEnd < 2 ^ 64
  packageStart : r.packageStart < 2 ^ 64
  packageEnd : r.packageEnd < 2 ^ 64

lemma crc32c_lt (l : List UInt8) : (crc32c l).toNat < 256 ^ 4 := (crc32c l).toNat_lt

/-- A block behind a magic number, once its checksum is put in. -/
theorem sealed_spec {b sealed : Block} {magic : List UInt8} (off k : ℕ)
    (h : sealed = putLe b off 4 (crc32c (slice b.toList 0 off)).toNat) (hoff : off + 4 ≤ 4096) (hk : k ≤ off)
    (hmagic : slice b.toList 0 k = magic) (hne : ¬ magic.all (· == 0)) :
    ¬ sealed.toList.all (· == 0) ∧ slice sealed.toList 0 k = magic ∧
      slice (putLe sealed off 4 0).toList 0 off = slice b.toList 0 off ∧
      getLe sealed.toList off 4 = (crc32c (slice b.toList 0 off)).toNat := by
  have hslice : slice sealed.toList 0 k = magic := by
    rw [h, slice_putLe_of_disjoint _ _ _ _ _ _ hoff (.inl hk), hmagic]
  refine ⟨fun hall => hne ?_, hslice, ?_, ?_⟩
  · rw [← hslice, List.all_eq_true]
    exact fun x hx => List.all_eq_true.mp hall x (List.mem_of_mem_drop (List.mem_of_mem_take hx))
  · rw [h, slice_putLe_of_disjoint _ _ _ _ _ _ hoff (.inl (le_refl _)),
      slice_putLe_of_disjoint _ _ _ _ _ _ hoff (.inl (le_refl _))]
  · rw [h, getLe_putLe_self _ _ _ _ hoff (crc32c_lt _)]

section RootRoundTrip

variable (r : SystemCatalogRoot)

lemma slice_rootFields_magic : slice (rootFields r).toList 0 8 = cowSuperblockMagic := by
  unfold rootFields checksumOffset
  simp (disch := omega) only [slice_putLe_of_disjoint]
  exact Bytes.slice_splice_self Block.zero 0 cowSuperblockMagic (by decide)

lemma rootOfBytes_encodeRoot (h : r.Fits) : rootOfBytes (encodeRoot r).toList = r := by
  obtain ⟨h1, h2, h3, h4, h5, h6, h7, h8, h9, h10, h11, h12, h13, h14, h15, h16⟩ := h
  unfold rootOfBytes encodeRoot rootFields checksumOffset
  simp (disch := omega) only [getLe_putLe_self, getLe_putLe_of_disjoint]

lemma version_encodeRoot : getLe (encodeRoot r).toList 8 2 = systemCatalogFormatVersion := by
  unfold encodeRoot rootFields checksumOffset systemCatalogFormatVersion
  simp (disch := omega) only [getLe_putLe_self, getLe_putLe_of_disjoint]

/-- **Superblocks are read back**: a root that fits its fields is decoded to itself. -/
theorem decodeRoot_encodeRoot (h : r.Fits) : decodeRoot (encodeRoot r) = .ok (some r) := by
  obtain ⟨hnz, hmagic, hcopy, hsum⟩ := sealed_spec checksumOffset 8 (rfl : encodeRoot r = _) (by decide) (by decide)
    (slice_rootFields_magic r) (by decide)
  unfold decodeRoot
  simp only [hnz, hmagic, version_encodeRoot, hcopy, hsum, ne_eq, not_true_eq_false, if_false,
    rootOfBytes_encodeRoot r h, Bool.false_eq_true]

end RootRoundTrip

section CommitRoundTrip

variable (c : CommitRecord)

/-- Every field of the record fits its place in a commit block. -/
structure CommitRecord.Fits (c : CommitRecord) : Prop where
  generation : c.generation < 2 ^ 64
  metadataStart : c.metadataStart < 2 ^ 64
  metadataBlocks : c.metadataBlocks < 2 ^ 32
  metadataBytes : c.metadataBytes < 2 ^ 32
  catalogStart : c.catalogStart < 2 ^ 64
  catalogBlocks : c.catalogBlocks < 2 ^ 32
  catalogBytes : c.catalogBytes < 2 ^ 32
  bitmapSlot : c.bitmapSlot < 2 ^ 8

lemma SystemCatalogRoot.Fits.commitRecord {r : SystemCatalogRoot} (h : r.Fits) : r.commitRecord.Fits :=
  ⟨h.generation, h.metadataStart, h.metadataBlocks, h.metadataBytes, h.catalogStart, h.catalogBlocks, h.catalogBytes,
    h.bitmapSlot⟩

lemma slice_commitFields_magic : slice (commitFields c).toList 0 4 = commitMagic := by
  unfold commitFields commitChecksumOffset
  simp (disch := omega) only [slice_putLe_of_disjoint]
  exact Bytes.slice_splice_self Block.zero 0 commitMagic (by decide)

lemma commitOfBytes_encodeCommit (h : c.Fits) : commitOfBytes (encodeCommit c).toList = c := by
  obtain ⟨h1, h2, h3, h4, h5, h6, h7, h8⟩ := h
  unfold commitOfBytes encodeCommit commitFields commitChecksumOffset
  simp (disch := omega) only [getLe_putLe_self, getLe_putLe_of_disjoint]

/-- **Commit records are read back.** -/
theorem decodeCommit_encodeCommit (h : c.Fits) : decodeCommit (encodeCommit c) = .ok (some c) := by
  obtain ⟨hnz, hmagic, hcopy, hsum⟩ := sealed_spec commitChecksumOffset 4 (rfl : encodeCommit c = _) (by decide) (by decide)
    (slice_commitFields_magic c) (by decide)
  unfold decodeCommit
  simp only [hnz, hmagic, hcopy, hsum, ne_eq, not_true_eq_false, if_false,
    commitOfBytes_encodeCommit c h, Bool.false_eq_true]

end CommitRoundTrip

/-- A blank block holds no commit record. -/
theorem decodeCommit_zero : decodeCommit Block.zero = .ok none := by
  have h : (Block.zero).toList.all (· == 0) := by
    rw [List.all_eq_true]
    intro x hx
    obtain ⟨i, hi, rfl⟩ := List.mem_iff_getElem.mp hx
    simp [Block.zero, Bytes.zeros]
  unfold decodeCommit
  simp [h]

/-! ## Validation -/

def validateCapacity (blocks : ℕ) : Except CatalogError ℕ :=
  if blocks ≤ dataStart + 2 then .error .tooSmall
  else if blocks > maxBlockCount then .error .tooLarge
  else .ok (blocks - 2)

def validatePools (blocks dataEnd systemBlocks packageStart : ℕ) : Except CatalogError Unit :=
  match checkedAdd dataStart systemBlocks with
  | none => .error .invalidRequest
  | some systemEnd =>
    if systemBlocks = 0 ∨ systemEnd ≥ packageStart ∨ packageStart ≥ dataEnd ∨ dataEnd ≥ blocks ∨ systemEnd > dataEnd
    then .error .invalidRequest
    else .ok ()

def emptyRoot (blocks dataEnd systemBlocks packageStart : ℕ) : Except CatalogError SystemCatalogRoot :=
  match checkedAdd dataStart systemBlocks with
  | none => .error .invalidRequest
  | some systemEnd => do
    validatePools blocks dataEnd systemBlocks packageStart
    .ok {
      generation := 1, metadataStart := 0, metadataBlocks := 0, metadataBytes := 0
      catalogStart := 0, catalogBlocks := 0, catalogBytes := 0, bitmapSlot := 0
      bitmapStart := dataEnd, bitmapBlocks := 1, systemStart := dataStart, systemEnd := systemEnd
      userStart := systemEnd, userEnd := packageStart, packageStart := packageStart, packageEnd := dataEnd }

/-- The test that both validations make of a published extent: it is not inside the system arena, or its byte length
is impossible. -/
def badExtent (root : SystemCatalogRoot) (start blocks bytes : ℕ) : Bool :=
  start < root.systemStart || (checkedAdd start blocks).all (· > root.systemEnd) || bytes == 0 ||
    bytes > blocks * blockBytes

def validateRoot (root : SystemCatalogRoot) (blocks dataEnd : ℕ) : Except CatalogError Unit :=
  if root.generation = 0 ∨ root.bitmapSlot ≥ 2 ∨ root.bitmapBlocks ≠ 1 ∨ root.bitmapStart ≠ dataEnd ∨
      root.packageEnd ≠ dataEnd ∨ root.systemStart ≠ dataStart ∨ root.systemStart ≥ root.systemEnd ∨
      root.systemEnd ≠ root.userStart ∨ root.userStart ≥ root.userEnd ∨ root.userEnd ≠ root.packageStart ∨
      root.packageStart ≥ root.packageEnd ∨ root.packageEnd ≥ blocks then .error .corrupt
  else if root.catalogBlocks = 0 ∧ (root.catalogBytes ≠ 0 ∨ root.catalogStart ≠ 0) then .error .corrupt
  else if root.catalogBlocks ≠ 0 ∧ badExtent root root.catalogStart root.catalogBlocks root.catalogBytes then
    .error .corrupt
  else if root.metadataBlocks ≠ 0 ∧ badExtent root root.metadataStart root.metadataBlocks root.metadataBytes then
    .error .corrupt
  else if root.metadataBlocks = 0 ∧ (root.metadataStart ≠ 0 ∨ root.metadataBytes ≠ 0) then .error .corrupt
  else .ok ()

def validateCommit (root : SystemCatalogRoot) (commit : CommitRecord) : Except CatalogError Unit :=
  if commit.generation = 0 ∨ commit.bitmapSlot ≥ 2 ∨
      (commit.catalogBlocks = 0 ∧ (commit.catalogStart ≠ 0 ∨ commit.catalogBytes ≠ 0)) ∨
      (commit.metadataBlocks = 0 ∧ (commit.metadataStart ≠ 0 ∨ commit.metadataBytes ≠ 0)) ∨
      (commit.metadataBlocks ≠ 0 ∧ badExtent root commit.metadataStart commit.metadataBlocks commit.metadataBytes) ∨
      (commit.catalogBlocks ≠ 0 ∧ badExtent root commit.catalogStart commit.catalogBlocks commit.catalogBytes)
  then .error .corrupt
  else .ok ()

/-- A published extent: nothing at all, or a stretch of the system arena with a byte length it can hold. -/
def GoodExtent (root : SystemCatalogRoot) (start blocks bytes : ℕ) : Prop :=
  (blocks = 0 ∧ start = 0 ∧ bytes = 0) ∨
    (0 < blocks ∧ root.systemStart ≤ start ∧ start + blocks ≤ root.systemEnd ∧ 0 < bytes ∧
      bytes ≤ blocks * blockBytes)

/-- **A well-formed root** of a store with `n` blocks: the three arenas lie in this order between the commit slots and
the two bitmap slots, which are the last blocks, and the published extents lie in the system arena. -/
structure SystemCatalogRoot.Valid (n : ℕ) (r : SystemCatalogRoot) : Prop where
  capacity : n ≤ maxBlockCount
  generation_pos : 0 < r.generation
  generation_lt : r.generation < 2 ^ 64
  bitmapSlot : r.bitmapSlot < 2
  bitmapBlocks : r.bitmapBlocks = 1
  bitmapStart : r.bitmapStart + 2 = n
  packageEnd : r.packageEnd + 2 = n
  systemStart : r.systemStart = dataStart
  system : r.systemStart < r.systemEnd
  userStart : r.userStart = r.systemEnd
  user : r.userStart < r.userEnd
  packageStart : r.packageStart = r.userEnd
  package : r.packageStart < r.packageEnd
  catalog : GoodExtent r r.catalogStart r.catalogBlocks r.catalogBytes
  metadata : GoodExtent r r.metadataStart r.metadataBlocks r.metadataBytes

/-- Two roots of one volume: `R` is `r` with other published fields. -/
def SystemCatalogRoot.Kin (r R : SystemCatalogRoot) : Prop := r.adopt R.commitRecord = R

section Valid

variable {n : ℕ} {r R : SystemCatalogRoot}

/-- The next root, with other published fields. -/
theorem SystemCatalogRoot.Valid.renewed {slot catalogStart catalogBlocks catalogBytes metadataStart metadataBlocks metadataBytes : ℕ}
    (hv : r.Valid n) (hgen : r.generation + 1 < 2 ^ 64) (hslot : slot < 2)
    (hcatalog : GoodExtent r catalogStart catalogBlocks catalogBytes)
    (hmetadata : GoodExtent r metadataStart metadataBlocks metadataBytes) :
    SystemCatalogRoot.Valid n { r with
      generation := r.generation + 1, catalogStart, catalogBlocks, catalogBytes, metadataStart, metadataBlocks, metadataBytes
      bitmapSlot := slot } :=
  ⟨hv.capacity, Nat.succ_pos _, hgen, hslot, hv.bitmapBlocks, hv.bitmapStart, hv.packageEnd, hv.systemStart, hv.system,
    hv.userStart, hv.user, hv.packageStart, hv.package, hcatalog, hmetadata⟩

lemma SystemCatalogRoot.Kin.refl (r : SystemCatalogRoot) : r.Kin r := rfl

lemma SystemCatalogRoot.Kin.trans {r R R' : SystemCatalogRoot} (h : r.Kin R) (h' : R.Kin R') : r.Kin R' := by
  rw [← h] at h'
  exact h'

lemma SystemCatalogRoot.Kin.symm (h : r.Kin R) : R.Kin r := by
  rw [← h]
  rfl

lemma SystemCatalogRoot.Kin.geometry (h : r.Kin R) : r.bitmapStart = R.bitmapStart ∧ r.systemStart = R.systemStart ∧
    r.systemEnd = R.systemEnd ∧ r.userStart = R.userStart ∧ r.userEnd = R.userEnd ∧
    r.packageStart = R.packageStart ∧ r.packageEnd = R.packageEnd := by
  rw [← h]
  exact ⟨rfl, rfl, rfl, rfl, rfl, rfl, rfl⟩

lemma GoodExtent.bounds {start blocks bytes : ℕ} (h : GoodExtent r start blocks bytes) (hs : r.systemEnd ≤ 32768) :
    start + blocks ≤ 32768 ∧ bytes ≤ 32768 * 4096 := by
  rcases h with ⟨rfl, rfl, rfl⟩ | ⟨_, _, h1, _, h2⟩
  · simp
  · unfold blockBytes at h2; omega

lemma GoodExtent.not_bad {start blocks bytes : ℕ} (h : GoodExtent r start blocks bytes) (hr : r.Valid n)
    (hb : blocks ≠ 0) (hg : R.systemStart = r.systemStart ∧ R.systemEnd = r.systemEnd) :
    badExtent R start blocks bytes = false := by
  rcases h with ⟨rfl, _⟩ | ⟨_, h1, h2, h3, h4⟩
  · exact (hb rfl).elim
  have hc : checkedAdd start blocks = some (start + blocks) := by
    have := hr.capacity
    have := hr.packageEnd; have := hr.package; have := hr.packageStart; have := hr.user; have := hr.userStart
    unfold maxBlockCount cowMaxBitmapBlocks blockBytes at *
    exact checkedAdd_eq_some.mpr ⟨by omega, rfl⟩
  unfold badExtent
  rw [hc, hg.1]
  simp only [Option.all_some, Bool.or_eq_false_iff, decide_eq_false_iff_not, beq_eq_false_iff_ne]
  omega

namespace SystemCatalogRoot.Valid

variable (h : r.Valid n)

include h

lemma systemEnd_le : r.systemEnd + 4 ≤ n := by
  have := h.packageEnd; have := h.package; have := h.packageStart; have := h.user; have := h.userStart
  omega

lemma count_le : n ≤ 32768 := h.capacity

lemma fits : r.Fits := by
  have hn := h.count_le
  have hs := h.systemEnd_le
  have hc := h.catalog.bounds (by omega)
  have hm := h.metadata.bounds (by omega)
  obtain ⟨_, _, h3, h4, h5, h6, h7, h8, h9, h10, h11, h12, h13, _, _⟩ := h
  constructor <;> omega

lemma validateCapacity_eq : validateCapacity n = .ok (n - 2) := by
  have := h.systemEnd_le; have := h.system; have := h.systemStart; have := h.capacity
  unfold validateCapacity
  rw [if_neg (by omega), if_neg (by omega)]

lemma validateRoot_eq : validateRoot r n (n - 2) = .ok () := by
  have hb := fun hb => h.catalog.not_bad h hb ⟨rfl, rfl⟩
  have hm := fun hb => h.metadata.not_bad h hb ⟨rfl, rfl⟩
  have hcat := h.catalog
  have hmet := h.metadata
  obtain ⟨_, h2, _, h4, h5, h6, h7, h8, h9, h10, h11, h12, h13, _, _⟩ := h
  unfold validateRoot
  rw [if_neg (by omega), if_neg (by rcases hcat with h | h <;> omega), if_neg, if_neg,
    if_neg (by rcases hmet with h | h <;> omega)]
  · rintro ⟨h0, h1⟩
    simp [hm h0] at h1
  · rintro ⟨h0, h1⟩
    simp [hb h0] at h1

/-- A commit record of a well-formed root passes the check against any root of the same volume. -/
theorem validateCommit_eq {r' : SystemCatalogRoot} (hk : r'.Kin r) : validateCommit r' r.commitRecord = .ok () := by
  have hg := hk.geometry
  have hb := fun hb => h.catalog.not_bad h hb ⟨hg.2.1, hg.2.2.1⟩
  have hm := fun hb => h.metadata.not_bad h hb ⟨hg.2.1, hg.2.2.1⟩
  have hcat := h.catalog
  have hmet := h.metadata
  have h2 := h.generation_pos
  have h4 := h.bitmapSlot
  unfold validateCommit commitRecord
  rw [if_neg]
  rintro (h | h | h | h | ⟨h0, h1⟩ | ⟨h0, h1⟩)
  · simp_all
  · simp only at h; omega
  · rcases hcat with h' | h' <;> simp only at h <;> omega
  · rcases hmet with h' | h' <;> simp only at h <;> omega
  · simp [hm h0] at h1
  · simp [hb h0] at h1

end SystemCatalogRoot.Valid

end Valid

end LogOS.Storage.Catalog
