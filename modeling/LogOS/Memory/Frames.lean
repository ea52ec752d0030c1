import LogOS.Lib.Cells
import Mathlib.Data.Nat.Bitwise

/-!
# The frame manager

The manager of physical frames keeps a record for each frame, a bitmap of the free frames in words of 64 bits, and a summary of
the bitmap with one bit for each word.  Its operations are programs over these words, so that one can say which words an
operation reads or writes.
-/

namespace LogOS.Memory

open Lib Prog

def pageSize : ℕ := 4096

def stateFree : ℕ := 0
def stateActive : ℕ := 1
def stateReserved : ℕ := 2
def stateZeroed : ℕ := 3

inductive FrameError where
  | invalidMap | capacity | exhausted | invalidFrame | staleHandle | wrongOwner | alreadyUsed | notReservation | batchCapacity
  deriving DecidableEq, Repr

inductive FrameState where
  | zeroed | dirty | reserved
  deriving DecidableEq, Repr

structure FrameId where
  run : ℕ
  offset : ℕ
  deriving DecidableEq, Repr

def FrameId.new (run offset : ℕ) : Option FrameId :=
  if run > 2 ^ 16 - 1 ∨ offset > 2 ^ 32 - 1 then none else some ⟨run, offset⟩

structure FrameAddress where
  raw : ℕ
  id : Option FrameId
  generation : ℕ
  deriving DecidableEq, Repr

structure FrameLease where
  address : FrameAddress
  id : FrameId
  generation : ℕ
  owner : ℕ
  state : FrameState
  homeCpu : ℕ
  slot : ℕ
  deriving DecidableEq, Repr

structure FrameRecord where
  generation : ℕ
  owner : ℕ
  state : ℕ
  deriving DecidableEq, Repr

/-- A run of pages, whose frames have the slots from `firstSlot` on. -/
structure RunMetadata where
  start : ℕ
  firstSlot : ℕ
  pages : ℕ
  deriving DecidableEq, Repr

/-- What does not change after the initialization: the array of runs, of which the first `runCount` are used, the number of
frames, and the number of records. -/
structure Layout where
  runs : List RunMetadata
  runCount : ℕ
  frameCount : ℕ
  recordsLen : ℕ

/-! ## Words -/

/-- A word of the metadata. -/
inductive Word where
  | free (index : ℕ)
  | summary (index : ℕ)
  | record (slot : ℕ)
  deriving DecidableEq, Repr

def Word.Content : Word → Type
  | .free _ => BitVec 64
  | .summary _ => BitVec 64
  | .record _ => FrameRecord

abbrev Metadata := ∀ word : Word, word.Content

abbrev FrameProg := Prog Word.Content

def readFree (index : ℕ) : FrameProg (BitVec 64) := Prog.get (V := Word.Content) (.free index)
def writeFree (index : ℕ) (bits : BitVec 64) : FrameProg Unit := Prog.put (V := Word.Content) (.free index) bits
def readSummary (index : ℕ) : FrameProg (BitVec 64) := Prog.get (V := Word.Content) (.summary index)
def writeSummary (index : ℕ) (bits : BitVec 64) : FrameProg Unit := Prog.put (V := Word.Content) (.summary index) bits
def readRecord (slot : ℕ) : FrameProg FrameRecord := Prog.get (V := Word.Content) (.record slot)
def writeRecord (slot : ℕ) (record : FrameRecord) : FrameProg Unit := Prog.put (V := Word.Content) (.record slot) record

/-- The index of the lowest bit that is set, 64 where there is none. -/
def trailingZeros (bits : BitVec 64) : ℕ := ((List.range 64).find? bits.getLsbD).getD 64

/-- `u64::MAX << k`. -/
def bitsFrom (k : ℕ) : BitVec 64 := BitVec.allOnes 64 <<< k

/-- `(1 << k) - 1`. -/
def bitsBelow (k : ℕ) : BitVec 64 := 1#64 <<< k - 1#64

/-- `1 << k`. -/
def bitAt (k : ℕ) : BitVec 64 := 1#64 <<< k

/-! ## Searching -/

/-- The bits of the summary word `index` that stand for words of the range. -/
def summaryInRange (first last index : ℕ) (words : BitVec 64) : BitVec 64 :=
  let firstWord := first / 64
  let lastWord := (last - 1) / 64
  let words := if index = firstWord / 64 then words &&& bitsFrom (firstWord % 64) else words
  if index = lastWord / 64 ∧ lastWord % 64 ≠ 63 then words &&& bitsBelow (lastWord % 64 + 1) else words

/-- The bits of the word `index` that stand for frames of the range. -/
def bitsInRange (first last index : ℕ) (bits : BitVec 64) : BitVec 64 :=
  let bits := if index = first / 64 then bits &&& bitsFrom (first % 64) else bits
  if index = (last - 1) / 64 ∧ last % 64 ≠ 0 then bits &&& bitsBelow (last % 64) else bits

lemma clearLowest_lt {words : BitVec 64} (h : words ≠ 0#64) : (words &&& (words - 1#64)).toNat < words.toNat := by
  have hpos : 0 < words.toNat := by
    rw [Nat.pos_iff_ne_zero]
    exact fun hzero => h (BitVec.eq_of_toNat_eq hzero)
  have hsub : (words - 1#64).toNat = words.toNat - 1 := by
    rw [BitVec.toNat_sub]
    simp only [BitVec.toNat_ofNat]
    omega
  rw [BitVec.toNat_and]
  have := Nat.and_le_right (n := words.toNat) (m := (words - 1#64).toNat)
  omega

/-- The loop over the words of the summary word `index`. -/
def searchWords (first last index : ℕ) (words : BitVec 64) : FrameProg (Option ℕ) :=
  if words = 0#64 then pure none
  else do
    let wordIndex := index * 64 + trailingZeros words
    let bits ← readFree wordIndex
    let bits := bitsInRange first last wordIndex bits
    if bits ≠ 0#64 then return some (wordIndex * 64 + trailingZeros bits)
    else searchWords first last index (words &&& (words - 1#64))
  termination_by words.toNat
  decreasing_by exact clearLowest_lt ‹_›

/-- The loop over the summary words from `index` on, of which there are `remaining`. -/
def searchSummaries (first last : ℕ) : ℕ → ℕ → FrameProg (Option ℕ)
  | 0, _ => pure none
  | remaining + 1, index => do
    let words ← readSummary index
    match ← searchWords first last index (summaryInRange first last index words) with
    | some slot => return some slot
    | none => searchSummaries first last remaining (index + 1)

def findFreeSlot (first last : ℕ) : FrameProg (Option ℕ) :=
  if first = last then pure none
  else
    let firstSummary := first / 64 / 64
    let lastSummary := (last - 1) / 64 / 64
    searchSummaries first last (lastSummary + 1 - firstSummary) firstSummary

def isFree (slot : ℕ) : FrameProg Bool := do
  let bits ← readFree (slot / 64)
  return bits &&& bitAt (slot % 64) ≠ 0#64

def setFree (slot : ℕ) : FrameProg Unit := do
  let word := slot / 64
  let bits ← readFree word
  writeFree word (bits ||| bitAt (slot % 64))
  let words ← readSummary (word / 64)
  writeSummary (word / 64) (words ||| bitAt (word % 64))

def clearFree (slot : ℕ) : FrameProg Unit := do
  let word := slot / 64
  let bits ← readFree word
  writeFree word (bits &&& ~~~ bitAt (slot % 64))
  let bits ← readFree word
  if bits = 0#64 then
    let words ← readSummary (word / 64)
    writeSummary (word / 64) (words &&& ~~~ bitAt (word % 64))
  else pure ()

/-! ## Frames -/

def nextFrameGeneration (current : ℕ) : ℕ :=
  let next := (current + 1) % 2 ^ 16
  if next = 0 then 1 else next

namespace Layout

variable (l : Layout)

/-- The binary search of `id_for_slot`. -/
def searchRun (slot low high : ℕ) : Option FrameId :=
  if low < high then
    let middle := (low + high) / 2
    match l.runs[middle]? with
    | none => none
    | some run =>
      if slot < run.firstSlot then searchRun slot low middle
      else if slot ≥ run.firstSlot + run.pages then searchRun slot (middle + 1) high
      else FrameId.new middle (slot - run.firstSlot)
  else none
  termination_by high - low

def idForSlot (slot : ℕ) : Option FrameId := l.searchRun slot 0 l.runCount

def slotForId (id : FrameId) : Option ℕ :=
  match l.runs[id.run]? with
  | none => none
  | some run => if id.offset < run.pages then some (run.firstSlot + id.offset) else none

/-- The address of a frame, with the generation that its record has. -/
def address (id : FrameId) : FrameProg (Option FrameAddress) :=
  match l.slotForId id, l.runs[id.run]? with
  | some slot, some run =>
    let raw := run.start + id.offset * pageSize
    if raw < 2 ^ 64 then do
      let record ← readRecord slot
      return some ⟨raw, some id, record.generation⟩
    else pure none
  | _, _ => pure none

/-- The end of `claim_used` and `refresh`: the lease of a frame. -/
def leaseOf (slot : ℕ) (lease : FrameAddress → FrameId → FrameLease) : FrameProg (Except FrameError FrameLease) :=
  match l.idForSlot slot with
  | none => pure (.error .invalidFrame)
  | some id => do
    match ← l.address id with
    | none => return .error .invalidFrame
    | some address => return .ok (lease address id)

def recordState (state : FrameState) : ℕ :=
  match state with
  | .reserved => stateReserved
  | .zeroed => stateZeroed
  | .dirty => stateActive

def claimUsed (slot owner : ℕ) (state : FrameState) : FrameProg (Except FrameError FrameLease) := do
  let record ← readRecord slot
  let generation := nextFrameGeneration record.generation
  writeRecord slot ⟨generation, owner, recordState state⟩
  l.leaseOf slot fun address id => ⟨address, id, generation, owner, state, 0, slot⟩

def claim (slot owner : ℕ) (state : FrameState) : FrameProg (Except FrameError FrameLease) := do
  clearFree slot
  l.claimUsed slot owner state

def tryAllocInRange (owner : ℕ) (state : FrameState) (first last : ℕ) : FrameProg (Except FrameError FrameLease) :=
  if owner = 0 ∨ first > last ∨ last > l.frameCount then pure (.error .invalidFrame)
  else do
    match ← findFreeSlot first last with
    | none => return .error .exhausted
    | some slot => l.claim slot owner state

def releaseSlot (slot : ℕ) : FrameProg Unit := do
  let record ← readRecord slot
  writeRecord slot { record with owner := 0, state := stateFree }
  setFree slot

/-- The checks of `validate_lease` on the record. -/
def checkLease (lease : FrameLease) (record : FrameRecord) : Except FrameError ℕ :=
  if record.state = stateFree then .error .staleHandle
  else if record.generation ≠ lease.generation then .error .staleHandle
  else if record.owner ≠ lease.owner then .error .wrongOwner
  else if record.state ≠ recordState lease.state then .error .staleHandle
  else .ok lease.slot

def validateLease (lease : FrameLease) : FrameProg (Except FrameError ℕ) :=
  if lease.slot < l.recordsLen then do
    let record ← readRecord lease.slot
    return checkLease lease record
  else pure (.error .invalidFrame)

def free (lease : FrameLease) : FrameProg (Except FrameError Unit) := do
  match ← l.validateLease lease with
  | .error error => return .error error
  | .ok slot => do
    releaseSlot slot
    return .ok ()

def validate (lease : FrameLease) : FrameProg (Except FrameError Unit) := do
  match ← l.validateLease lease with
  | .error error => return .error error
  | .ok _ => return .ok ()

def refresh (lease : FrameLease) : FrameProg (Except FrameError FrameLease) := do
  match ← l.validateLease lease with
  | .error error => return .error error
  | .ok slot => do
    let record ← readRecord slot
    let generation := nextFrameGeneration record.generation
    writeRecord slot { record with generation }
    l.leaseOf slot fun address id => { lease with address, id, generation }

end Layout

end LogOS.Memory
