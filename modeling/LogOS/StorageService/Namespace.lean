import LogOS.Storage.Catalog.Volume
import LogOS.StorageService.Packages

/-!
# Objects and names

The table of files and directories in memory: names and paths, and the five kinds of records that change it.  A
namespace and the view that a transaction has of one go through the same code, which the source writes out twice: here
it is written once, over the record that is found in each slot, and both are instances of it.
-/

namespace LogOS.StorageService

open Lib Abi Storage Storage.Catalog Package

def maxObjects : ℕ := 4
def maxComponentBytes : ℕ := 255
def maxPathDepth : ℕ := 32
def maxFileExtents : ℕ := 8
def maxFileBlocks : ℕ := 2
def maxFileBytes : ℕ := maxFileBlocks * blockBytes
def maxRecordPayloadBytes : ℕ := blockBytes - 32
def maxWriteRecords : ℕ := maxFileBlocks + 1
def writeHeaderBytes : ℕ := 12
def maxWriteBytes : ℕ := maxRecordPayloadBytes - writeHeaderBytes
def createKind : ℕ := 1
def renameKind : ℕ := 2
def unlinkKind : ℕ := 3
def writeKind : ℕ := 4
def truncateKind : ℕ := 5

structure ObjectId where
  slot : ℕ
  generation : ℕ
  deriving DecidableEq, Repr

namespace ObjectId

def root : ObjectId := ⟨0, 1⟩

/-- `ObjectId::new`: generation zero stands for no object. -/
def make (slot generation : ℕ) : Option ObjectId := if generation = 0 then none else some ⟨slot, generation⟩

end ObjectId

inductive ObjectKind where
  | file
  | directory
  deriving DecidableEq, Repr

namespace ObjectKind

def toByte : ObjectKind → UInt8
  | .file => 1
  | .directory => 2

def ofByte (b : UInt8) : Option ObjectKind := if b = 1 then some .file else if b = 2 then some .directory else none

lemma ofByte_toByte (kind : ObjectKind) : ofByte kind.toByte = some kind := by cases kind <;> rfl

end ObjectKind

inductive FormatError where
  | block (e : BlockError)
  | notBlank
  | unformatted
  | corrupt
  | unsupportedVersion
  | tooSmall
  | invalidRequest
  | payloadTooLarge
  | transactionTooLarge
  | journalFull
  | generationExhausted
  | replayRejected
  | provisionedBlank
  deriving DecidableEq, Repr

inductive NamespaceError where
  | format (e : FormatError)
  | block (e : BlockError)
  | capacity
  | invalidName
  | invalidPath
  | notFound
  | notDirectory
  | alreadyExists
  | isDirectory
  | root
  | notEmpty
  | stale
  | tooLarge
  | invalidRecord
  | generationExhausted
  | commitNotPublished
  | recovery
  | unsupported
  | package (e : PackageCatalogError)
  deriving DecidableEq, Repr

/-- `From<CowError> for NamespaceError`. -/
def NamespaceError.ofCow : CowError → NamespaceError
  | .unsupportedVersion => .format .unsupportedVersion
  | .unformatted => .format .unformatted
  | .provisionedBlank => .format .provisionedBlank
  | .notBlank => .format .notBlank
  | .tooSmall => .format .tooSmall
  | .block e => .block e
  | .generationExhausted => .generationExhausted
  | .outOfSpace => .capacity
  | .retiredExtentCapacity => .capacity
  | .corrupt => .recovery
  | .tooLarge => .recovery
  | .invalidRequest => .recovery

def mapCatalogError : CatalogError → NamespaceError
  | .block e => .block e
  | .outOfSpace => .capacity
  | .invalidRequest => .invalidRecord
  | .generationExhausted => .generationExhausted
  | .tooLarge => .tooLarge
  | .notBlank => .format .notBlank
  | .unformatted => .format .unformatted
  | .provisionedBlank => .format .provisionedBlank
  | .unsupportedVersion => .format .unsupportedVersion
  | .corrupt => .format .corrupt
  | .tooSmall => .format .tooSmall

structure ObjectInfo where
  id : ObjectId
  parent : ObjectId
  kind : ObjectKind
  length : ℕ
  name : List UInt8
  deriving DecidableEq, Repr

/-- The inline contents of a file. -/
abbrev FileData : Type := Bytes 8192

structure ObjectRecord where
  generation : ℕ
  parent : ObjectId
  kind : ObjectKind
  alive : Bool
  nameLength : ℕ
  name : Bytes 255
  length : ℕ
  extents : List CowExtent
  data : FileData
  deriving DecidableEq

namespace ObjectRecord

def empty : ObjectRecord where
  generation := 0
  parent := ⟨65535, 1⟩
  kind := .file
  alive := false
  nameLength := 0
  name := Bytes.zeros 255
  length := 0
  extents := []
  data := Bytes.zeros 8192

/-- `record.name[..record.name_length]`. -/
def nameBytes (record : ObjectRecord) : List UInt8 := record.name.toList.take record.nameLength

end ObjectRecord

/-! ## Names -/

def validateName (name : List UInt8) : Except NamespaceError Unit :=
  if name.isEmpty ∨ name.length > maxComponentBytes ∨ name.any (fun byte => byte == 0 || byte == 47) then
    .error .invalidName
  else .ok ()

/-- New names must also avoid the dot and the double dot; stored records keep the older rule. -/
def validateNewName (name : List UInt8) : Except NamespaceError Unit :=
  if name = [46] ∨ name = [46, 46] then .error .invalidName else validateName name

/-! ## Looking objects up -/

/-- What a reader of objects sees: the record in each slot, as far as there are slots. -/
abbrev Lookup : Type := ℕ → Option ObjectRecord

namespace Lookup

variable (look : Lookup)

def objectRecord (id : ObjectId) : Except NamespaceError ObjectRecord :=
  match look id.slot with
  | none => .error .stale
  | some record => if record.alive = false ∨ record.generation ≠ id.generation then .error .stale else .ok record

/-- The record in `slot` is a live child of `parent` with this name. -/
def childAt (parent : ObjectId) (name : List UInt8) (slot : ℕ) : Option ObjectId :=
  match look slot with
  | none => none
  | some record =>
    if record.alive = true ∧ record.parent = parent ∧ record.nameLength = name.length ∧
        record.name.toList.take name.length = name then
      some ⟨slot, record.generation⟩
    else none

def findChild (parent : ObjectId) (name : List UInt8) : Except NamespaceError (Option ObjectId) := do
  let _ ← objectRecord look parent
  .ok ((List.range maxObjects).findSome? (childAt look parent name))

/-- The record of `id`, which has to be a directory. -/
def directory (id : ObjectId) : Except NamespaceError Unit := do
  let record ← objectRecord look id
  if record.kind ≠ .directory then .error .notDirectory else .ok ()

/-- The first slot without a live object. -/
def freeSlot : Option (ℕ × ObjectRecord) :=
  (List.range maxObjects).findSome? fun slot =>
    (look slot).bind fun record => if record.alive then none else some (slot, record)

def planCreate (parent : ObjectId) (kind : ObjectKind) (name : List UInt8) :
    Except NamespaceError (ObjectId × Bytes 270) := do
  directory look parent
  validateNewName name
  match ← findChild look parent name with
  | some _ => .error .alreadyExists
  | none =>
    match freeSlot look with
    | none => .error .capacity
    | some (slot, record) =>
      if record.generation + 1 < 2 ^ 32 then
        let payload := putLe (Bytes.zeros 270) 0 2 slot
        let payload := putLe payload 2 4 (record.generation + 1)
        let payload := putLe payload 6 2 parent.slot
        let payload := putLe payload 8 4 parent.generation
        let payload := payload.splice 12 [kind.toByte]
        let payload := putLe payload 13 2 name.length
        .ok (⟨slot, record.generation + 1⟩, payload.splice 15 name)
      else .error .generationExhausted

def isDescendantLoop (object : ObjectId) : ℕ → ObjectId → Except NamespaceError Bool
  | 0, _ => .error .invalidRecord
  | n + 1, current =>
    if current = object then .ok true
    else if current = .root then .ok false
    else do
      let record ← objectRecord look current
      isDescendantLoop object n record.parent

def isDescendant (object parent : ObjectId) : Except NamespaceError Bool :=
  isDescendantLoop look object (maxObjects + 1) parent

/-- The loop of `resolve_path` over the rest of the path, with at most `n` components left. -/
def resolveLoop : ℕ → ObjectId → ℕ → List UInt8 → Except NamespaceError ObjectId
  | 0, current, _, _ => .ok current
  | n + 1, current, depth, rest =>
    if rest.isEmpty then .ok current
    else
      let component := rest.takeWhile (· != 47)
      if component.isEmpty then .error .invalidPath
      else if depth + 1 > maxPathDepth then .error .invalidPath
      else do
        match ← findChild look current component with
        | none => .error .notFound
        | some child => resolveLoop n child (depth + 1) (rest.drop (component.length + 1))

def resolvePath (path : List UInt8) : Except NamespaceError ObjectId :=
  if path = [47] then .ok .root
  else if path.head? ≠ some 47 ∨ path.getLast? = some 47 then .error .invalidPath
  else resolveLoop look path.length .root 0 (path.drop 1)

def parentAndName (path : List UInt8) : Except NamespaceError (ObjectId × List UInt8) :=
  if path.head? ≠ some 47 ∨ path = [47] then .error .invalidPath
  else
    let name := (path.reverse.takeWhile (· != 47)).reverse
    let slash := path.length - name.length - 1
    if name.isEmpty then .error .invalidPath
    else do
      let parent ← resolvePath look (if slash = 0 then [47] else path.take slash)
      .ok (parent, name)

def stat (id : ObjectId) : Except NamespaceError ObjectInfo := do
  let record ← objectRecord look id
  .ok ⟨id, record.parent, record.kind, record.length, record.nameBytes⟩

/-- What `read` puts into a buffer of `capacity` bytes. -/
def read (id : ObjectId) (offset capacity : ℕ) : Except NamespaceError (List UInt8) := do
  let record ← objectRecord look id
  if record.kind ≠ .file then .error .isDirectory
  else if record.extents ≠ [] then .error .unsupported
  else if offset > record.length then .error .tooLarge
  else .ok (slice record.data.toList offset (offset + min capacity (record.length - offset)))

def fileExtents (id : ObjectId) : Except NamespaceError (List CowExtent) := do
  let record ← objectRecord look id
  if record.extents.length > maxFileExtents ∨ record.extents.any (·.blocks == 0) then .error .invalidRecord
  else .ok record.extents

def list (parent : ObjectId) : Except NamespaceError (List ObjectId) := do
  directory look parent
  .ok ((List.range maxObjects).filterMap fun slot =>
    (look slot).bind fun record =>
      if record.alive = true ∧ record.parent = parent then some ⟨slot, record.generation⟩ else none)

end Lookup

/-! ## Changes

A record of a transaction changes one slot: each of the five functions returns the slot and what it holds from then on. -/

def objectIdAt (payload : List UInt8) (offset : ℕ) : Except NamespaceError ObjectId :=
  match ObjectId.make (getLe payload offset 2) (getLe payload (offset + 2) 4) with
  | none => .error .invalidRecord
  | some id => .ok id

/-- The name behind its length at `offset`. -/
def nameAt (payload : List UInt8) (offset : ℕ) : Except NamespaceError (List UInt8) := do
  let nameLength := getLe payload offset 2
  if nameLength = 0 ∨ nameLength > maxComponentBytes then .error .invalidRecord
  else do
    validateName (slice payload (offset + 2) (offset + 2 + nameLength))
    .ok (slice payload (offset + 2) (offset + 2 + nameLength))

namespace Lookup

variable (look : Lookup)

def createChange (payload : List UInt8) : Except NamespaceError (ℕ × ObjectRecord) :=
  if payload.length ≠ 270 then .error .invalidRecord
  else do
    let id ← objectIdAt payload 0
    let parent ← objectIdAt payload 6
    match ObjectKind.ofByte (payload.getD 12 0) with
    | none => .error .invalidRecord
    | some kind => do
      let name ← nameAt payload 13
      directory look parent
      match ← findChild look parent name with
      | some _ => .error .alreadyExists
      | none =>
        match look id.slot with
        | none => .error .invalidRecord
        | some previous =>
          if previous.alive = true ∨ previous.generation ≥ id.generation then .error .invalidRecord
          else
            .ok (id.slot, {
              generation := id.generation, parent := parent, kind := kind, alive := true, nameLength := name.length
              name := (Bytes.zeros 255).splice 0 name, length := 0, extents := [], data := Bytes.zeros 8192 })

def renameChange (payload : List UInt8) : Except NamespaceError (ℕ × ObjectRecord) :=
  if payload.length ≠ 269 then .error .invalidRecord
  else do
    let id ← objectIdAt payload 0
    if id = .root then .error .root
    else do
      let parent ← objectIdAt payload 6
      let name ← nameAt payload 12
      directory look parent
      let child ← findChild look parent name
      if child.any (· != id) then .error .alreadyExists
      else if ← isDescendant look id parent then .error .invalidPath
      else do
        let record ← objectRecord look id
        .ok (id.slot, { record with
          parent := parent, nameLength := name.length, name := (Bytes.zeros 255).splice 0 name })

def hasChild (id : ObjectId) : Bool :=
  (List.range maxObjects).any fun slot => (look slot).any fun child => child.alive && child.parent == id

def unlinkChange (payload : List UInt8) : Except NamespaceError (ℕ × ObjectRecord) :=
  if payload.length ≠ 6 then .error .invalidRecord
  else do
    let id ← objectIdAt payload 0
    if id = .root then .error .root
    else do
      let record ← objectRecord look id
      if record.kind = .directory ∧ hasChild look id then .error .notEmpty
      else .ok (id.slot, { record with alive := false })

/-- The record of a file with inline contents. -/
def inlineFile (id : ObjectId) : Except NamespaceError ObjectRecord := do
  let record ← objectRecord look id
  if record.kind ≠ .file then .error .isDirectory
  else if record.extents ≠ [] then .error .unsupported
  else .ok record

def writeChange (payload : List UInt8) : Except NamespaceError (ℕ × ObjectRecord) :=
  if payload.length < writeHeaderBytes then .error .invalidRecord
  else do
    let id ← objectIdAt payload 0
    let offset := getLe payload 6 4
    let length := getLe payload 10 2
    if length ≠ payload.length - writeHeaderBytes ∨ offset + length > maxFileBytes then .error .invalidRecord
    else do
      let record ← inlineFile look id
      .ok (id.slot, { record with
        data := record.data.splice offset (payload.drop writeHeaderBytes), length := max record.length (offset + length) })

def truncateChange (payload : List UInt8) : Except NamespaceError (ℕ × ObjectRecord) :=
  if payload.length ≠ 10 then .error .invalidRecord
  else do
    let id ← objectIdAt payload 0
    let length := getLe payload 6 4
    if length > maxFileBytes then .error .invalidRecord
    else do
      let record ← inlineFile look id
      .ok (id.slot, { record with
        data := record.data.splice length (List.replicate (maxFileBytes - length) 0), length := length })

def recordChange (kind : ℕ) (payload : List UInt8) : Except NamespaceError (ℕ × ObjectRecord) :=
  if kind = createKind then createChange look payload
  else if kind = renameKind then renameChange look payload
  else if kind = unlinkKind then unlinkChange look payload
  else if kind = writeKind then writeChange look payload
  else if kind = truncateKind then truncateChange look payload
  else .error .invalidRecord

end Lookup

/-! ## The namespace -/

structure ObjectNamespace where
  records : Vector ObjectRecord 4
  deriving DecidableEq

namespace ObjectNamespace

/-- The namespace with an empty root directory. -/
def new : ObjectNamespace :=
  ⟨(Vector.replicate 4 .empty).set 0 { ObjectRecord.empty with generation := 1, kind := .directory, alive := true }⟩

def lookup (ns : ObjectNamespace) : Lookup := fun slot => ns.records[slot]?

def set (ns : ObjectNamespace) (slot : ℕ) (record : ObjectRecord) : ObjectNamespace :=
  ⟨ns.records.setIfInBounds slot record⟩

def applyRecord (ns : ObjectNamespace) (kind : ℕ) (payload : List UInt8) : Except NamespaceError ObjectNamespace := do
  let (slot, record) ← ns.lookup.recordChange kind payload
  .ok (ns.set slot record)

def setFileExtents (ns : ObjectNamespace) (id : ObjectId) (extents : List CowExtent) (length : ℕ) :
    Except NamespaceError ObjectNamespace := do
  let record ← ns.lookup.objectRecord id
  if record.kind ≠ .file ∨ extents = [] ∨ extents.length > maxFileExtents ∨ extents.any (·.blocks == 0) ∨
      length > Extent.total extents * blockBytes then .error .invalidRecord
  else .ok (ns.set id.slot { record with length := length % 2 ^ 32, extents := extents, data := Bytes.zeros 8192 })

end ObjectNamespace

/-! ## The payloads of the records -/

def renamePayload (id parent : ObjectId) (name : List UInt8) : Bytes 269 :=
  let payload := putLe (Bytes.zeros 269) 0 2 id.slot
  let payload := putLe payload 2 4 id.generation
  let payload := putLe payload 6 2 parent.slot
  let payload := putLe payload 8 4 parent.generation
  let payload := putLe payload 12 2 name.length
  payload.splice 14 name

def unlinkPayload (id : ObjectId) : Bytes 6 := putLe (putLe (Bytes.zeros 6) 0 2 id.slot) 2 4 id.generation

def truncatePayload (id : ObjectId) (length : ℕ) : Bytes 10 :=
  putLe (putLe (putLe (Bytes.zeros 10) 0 2 id.slot) 2 4 id.generation) 6 4 length

def writePayload (id : ObjectId) (offset : ℕ) (input : List UInt8) : List UInt8 :=
  let header := putLe (Bytes.zeros 12) 0 2 id.slot
  let header := putLe header 2 4 id.generation
  let header := putLe header 6 4 offset
  let header := putLe header 10 2 input.length
  header.toList ++ input

/-- The records that a write of `input` is cut into. -/
def writePayloads (id : ObjectId) (offset : ℕ) (input : List UInt8) : List (List UInt8) :=
  (List.range ((input.length + maxWriteBytes - 1) / maxWriteBytes)).map fun index =>
    writePayload id (offset + index * maxWriteBytes)
      (slice input (index * maxWriteBytes) (index * maxWriteBytes + maxWriteBytes))

/-! ## Transactions -/

def maxTransactionRecords : ℕ := 8

/-- Slots that are changed, over a base that is not. -/
structure NamespaceView where
  base : ObjectNamespace
  changes : Vector (Option ObjectRecord) 4

def NamespaceView.lookup (view : NamespaceView) : Lookup := fun slot =>
  match view.changes[slot]? with
  | none => none
  | some change => change.or view.base.records[slot]?

structure PendingRecord where
  kind : ℕ
  payload : List UInt8
  deriving DecidableEq, Repr

structure NamespaceTransaction where
  records : List PendingRecord
  changes : Vector (Option ObjectRecord) 4
  retiredExtents : List CowExtent
  baseGeneration : ℕ

namespace NamespaceTransaction

def new (baseGeneration : ℕ) : NamespaceTransaction := ⟨[], Vector.replicate 4 none, [], baseGeneration⟩

def view (t : NamespaceTransaction) (base : ObjectNamespace) : Lookup := NamespaceView.lookup ⟨base, t.changes⟩

variable (base : ObjectNamespace)

def pushRecord (kind : ℕ) (payload : List UInt8) : Op NamespaceTransaction NamespaceError Unit := do
  let t ← Op.get
  Op.guard (t.records.length != maxTransactionRecords) .capacity
  Op.guard (payload.length ≤ maxRecordPayloadBytes) .tooLarge
  let (slot, record) ← Op.lift ((t.view base).recordChange kind payload)
  Op.modify fun t => { t with
    changes := t.changes.setIfInBounds slot (some record), records := t.records ++ [⟨kind, payload⟩] }

def create (path : List UInt8) (kind : ObjectKind) : Op NamespaceTransaction NamespaceError ObjectId := do
  let t ← Op.get
  let (parent, name) ← Op.lift ((t.view base).parentAndName path)
  let (id, payload) ← Op.lift ((t.view base).planCreate parent kind name)
  pushRecord base createKind payload.toList
  Op.ret id

def createFile (path : List UInt8) : Op NamespaceTransaction NamespaceError ObjectId := create base path .file

def createDirectory (path : List UInt8) : Op NamespaceTransaction NamespaceError ObjectId := create base path .directory

def list (t : NamespaceTransaction) (path : List UInt8) : Except NamespaceError (List ObjectId) := do
  let parent ← (t.view base).resolvePath path
  (t.view base).list parent

def stat (t : NamespaceTransaction) (path : List UInt8) : Except NamespaceError ObjectInfo := do
  let id ← (t.view base).resolvePath path
  (t.view base).stat id

def statId (t : NamespaceTransaction) (id : ObjectId) : Except NamespaceError ObjectInfo := (t.view base).stat id

def read (t : NamespaceTransaction) (path : List UInt8) (offset capacity : ℕ) : Except NamespaceError (List UInt8) := do
  let id ← (t.view base).resolvePath path
  (t.view base).read id offset capacity

def write (path : List UInt8) (offset : ℕ) (input : List UInt8) (replace : Bool) :
    Op NamespaceTransaction NamespaceError ℕ := do
  let t ← Op.get
  let id ← Op.lift ((t.view base).resolvePath path)
  let record ← Op.lift ((t.view base).objectRecord id)
  Op.guard (record.kind == .file) .isDirectory
  Op.guard (!(input.isEmpty && !replace)) .tooLarge
  Op.guard (offset + input.length ≤ maxFileBytes) .tooLarge
  let truncates := replace && record.length != 0
  let count := (writePayloads id offset input).length
  Op.guard (count ≤ maxWriteRecords && t.records.length + truncates.toNat + count ≤ maxTransactionRecords) .capacity
  if truncates then pushRecord base truncateKind (truncatePayload id 0).toList else Op.ret ()
  Op.forEach (pushRecord base writeKind) (writePayloads id offset input)
  Op.ret input.length

def remove (path : List UInt8) : Op NamespaceTransaction NamespaceError Unit := do
  let t ← Op.get
  let id ← Op.lift ((t.view base).resolvePath path)
  let extents ← Op.lift ((t.view base).fileExtents id)
  pushRecord base unlinkKind (unlinkPayload id).toList
  Op.guard (t.retiredExtents.length + extents.length ≤ maxObjects * maxFileExtents) .capacity
  Op.modify fun t => { t with retiredExtents := t.retiredExtents ++ extents }

def rename (source target : List UInt8) : Op NamespaceTransaction NamespaceError Unit := do
  let t ← Op.get
  let id ← Op.lift ((t.view base).resolvePath source)
  let (parent, name) ← Op.lift ((t.view base).parentAndName target)
  Op.guard (id != .root) .root
  Op.lift (validateNewName name)
  pushRecord base renameKind (renamePayload id parent name).toList

end NamespaceTransaction

end LogOS.StorageService
