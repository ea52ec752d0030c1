import LogOS.Lib.Bytes
import LogOS.Memory.PageTable

/-!
# Executable images

The parser of executable images: it takes the loadable segments of an ELF file, read piece by piece, into a load plan.  What a plan
that the parser accepts is worth is `ElfLoadPlan.Sound`: each segment lies in the file and in the lower half of the address space,
and none can be both written and executed.
-/

namespace LogOS.Memory

open Lib

def maxImageBytes : ℕ := 2048 * 1024
def maxProgramHeaders : ℕ := 16
def elfMagic : List UInt8 := [0x7f, 0x45, 0x4c, 0x46]

inductive ProcessError where
  | capacity | invalidImage | invalidHandle | notRunning | addressSpace | readFailure
  deriving DecidableEq, Repr

/-- A reader of an image.  `read offset n` fills a buffer of `n` bytes; the bytes that it returns are those it has filled in, and
their number is the amount that it reports. -/
structure ImageReader where
  len : ℕ
  read : ℕ → ℕ → Except ProcessError (List UInt8)

/-- The reader returns the bytes of the image, wherever it is asked for bytes that the image has. -/
structure ImageReader.Faithful (reader : ImageReader) (image : List UInt8) : Prop where
  len : reader.len = image.length
  read : ∀ offset n, offset + n ≤ image.length → reader.read offset n = .ok (slice image offset (offset + n))

def sliceImageReader (image : List UInt8) : ImageReader where
  len := image.length
  read offset n :=
    if offset + n < 2 ^ 64 ∧ offset + n ≤ image.length then .ok (slice image offset (offset + n)) else .error .readFailure

def readExact (reader : ImageReader) (offset n : ℕ) : Except ProcessError (List UInt8) :=
  if offset + n ≥ 2 ^ 64 ∨ offset + n > reader.len then .error .invalidImage
  else
    match reader.read offset n with
    | .error error => .error error
    | .ok bytes => if bytes.length = n then .ok bytes else .error .readFailure

/-! ## Plans -/

structure LoadSegment where
  fileOffset : ℕ
  virtualAddress : ℕ
  fileSize : ℕ
  memorySize : ℕ
  flags : MappingFlags
  deriving DecidableEq, Repr

/-- A plan; its segments are those in use of the array of the source. -/
structure ElfLoadPlan where
  entry : ℕ
  segments : List LoadSegment
  memoryBytes : ℕ
  deriving DecidableEq, Repr

namespace LoadSegment

def virtualEnd (segment : LoadSegment) : ℕ := segment.virtualAddress + segment.memorySize

def fileBytes (segment : LoadSegment) (image : List UInt8) : Option (List UInt8) :=
  if segment.fileOffset + segment.fileSize ≤ image.length then
    some (slice image segment.fileOffset (segment.fileOffset + segment.fileSize))
  else none

/-- What the parser asks of a segment, in a file of `len` bytes. -/
structure Sound (len : ℕ) (segment : LoadSegment) : Prop where
  memory_pos : 0 < segment.memorySize
  file_le : segment.fileSize ≤ segment.memorySize
  file_end : segment.fileOffset + segment.fileSize ≤ len
  low : 0x1000 ≤ segment.virtualAddress
  high : segment.virtualEnd ≤ 0x0000800000000000
  user : segment.flags.user = true
  exclusive : ¬ (segment.flags.writable = true ∧ segment.flags.executable = true)

end LoadSegment

/-- The segment that a program header of the loadable kind describes. -/
def segmentOf (header : List UInt8) : LoadSegment where
  fileOffset := getLe header 8 8
  virtualAddress := getLe header 16 8
  fileSize := getLe header 32 8
  memorySize := getLe header 40 8
  flags := ⟨true, getLe header 4 4 &&& 2 != 0, getLe header 4 4 &&& 1 != 0⟩

/-- The checks on a segment, for a plan with `memoryBytes` so far. -/
def segmentRejected (len memoryBytes : ℕ) (segment : LoadSegment) : Bool :=
  decide (segment.fileOffset + segment.fileSize ≥ 2 ^ 64) || decide (segment.virtualEnd ≥ 2 ^ 64) ||
    segment.memorySize == 0 || decide (segment.fileSize > segment.memorySize) ||
    decide (segment.fileOffset + segment.fileSize > len) || decide (segment.virtualAddress < 0x1000) ||
    decide (segment.virtualEnd > 0x0000800000000000) || decide (segment.memorySize > maxImageBytes) ||
    (segment.flags.executable && segment.flags.writable) || decide (memoryBytes + segment.memorySize ≥ 2 ^ 64) ||
    decide (memoryBytes + segment.memorySize > maxImageBytes)

/-- A plan in the making, and whether the entry was seen in an executable segment. -/
structure PlanState where
  plan : ElfLoadPlan
  entryExecutable : Bool

/-- A round of the loop over the program headers. -/
def parseHeader (len : ℕ) (header : List UInt8) (state : PlanState) : Except ProcessError PlanState :=
  if getLe header 0 4 ≠ 1 then .ok state
  else
    let segment := segmentOf header
    if segmentRejected len state.plan.memoryBytes segment then .error .invalidImage
    else if state.plan.segments.length = maxProgramHeaders then .error .invalidImage
    else
      .ok
        { plan :=
            { state.plan with
              segments := state.plan.segments ++ [segment], memoryBytes := state.plan.memoryBytes + segment.memorySize },
          entryExecutable := state.entryExecutable || (segment.flags.executable &&
            decide (segment.virtualAddress ≤ state.plan.entry) && decide (state.plan.entry < segment.virtualEnd)) }

/-- The loop over the program headers, of which `count` are left from `index` on. -/
def parseHeaders (len : ℕ) (headerAt : ℕ → Except ProcessError (List UInt8)) :
    ℕ → ℕ → PlanState → Except ProcessError PlanState
  | 0, _, state => .ok state
  | count + 1, index, state => do
    let header ← headerAt index
    let state ← parseHeader len header state
    parseHeaders len headerAt count (index + 1) state

/-- The table of the program headers, read at once where the headers have the common size. -/
def headerTable (reader : ImageReader) (phOffset phEntrySize phCount : ℕ) : Except ProcessError (List UInt8) :=
  if phEntrySize = 56 then readExact reader phOffset (phEntrySize * phCount) else .ok []

/-- The program header `index`: cut out of the table where the headers have the common size, and read otherwise. -/
def programHeader (reader : ImageReader) (phOffset phEntrySize : ℕ) (table : List UInt8) (index : ℕ) :
    Except ProcessError (List UInt8) :=
  if phEntrySize = 56 then .ok (slice table (index * 56) (index * 56 + 56))
  else readExact reader (phOffset + index * phEntrySize) 56

namespace ElfLoadPlan

/-- The end of the parser, once the header of the file has been accepted. -/
def parseProgram (reader : ImageReader) (entry phOffset phEntrySize phCount : ℕ) : Except ProcessError ElfLoadPlan := do
  let table ← headerTable reader phOffset phEntrySize phCount
  let state ← parseHeaders reader.len (programHeader reader phOffset phEntrySize table) phCount 0 ⟨⟨entry, [], 0⟩, false⟩
  if state.plan.segments.length = 0 ∨ state.entryExecutable = false then .error .invalidImage else .ok state.plan

def parseReader (reader : ImageReader) : Except ProcessError ElfLoadPlan := do
  if reader.len < 64 ∨ reader.len > maxImageBytes then .error .invalidImage
  else do
    let header ← readExact reader 0 64
    if slice header 0 4 ≠ elfMagic ∨ header.getD 4 0 ≠ 2 ∨ header.getD 5 0 ≠ 1 ∨ getLe header 18 2 ≠ 0x3e ∨ getLe header 16 2 ≠ 2 then
      .error .invalidImage
    else
      let entry := getLe header 24 8
      let phOffset := getLe header 32 8
      let phEntrySize := getLe header 54 2
      let phCount := getLe header 56 2
      let phBytes := phEntrySize * phCount
      if entry = 0 ∨ phEntrySize < 56 ∨ phCount = 0 ∨ phCount > maxProgramHeaders ∨ phOffset + phBytes ≥ 2 ^ 64 ∨
          phOffset + phBytes > reader.len then
        .error .invalidImage
      else parseProgram reader entry phOffset phEntrySize phCount

def parse (image : List UInt8) : Except ProcessError ElfLoadPlan := parseReader (sliceImageReader image)

/-- Every segment of the plan is sound, in a file of `len` bytes. -/
def Sound (len : ℕ) (plan : ElfLoadPlan) : Prop := ∀ segment ∈ plan.segments, segment.Sound len

end ElfLoadPlan

/-! ## What the parser accepts -/

lemma sound_of_not_segmentRejected {len memoryBytes : ℕ} {header : List UInt8}
    (h : segmentRejected len memoryBytes (segmentOf header) = false) : (segmentOf header).Sound len := by
  simp only [segmentRejected, Bool.or_eq_false_iff, decide_eq_false_iff_not, beq_eq_false_iff_ne, Bool.and_eq_false_iff] at h
  refine ⟨by omega, by omega, by omega, by omega, by omega, rfl, ?_⟩
  rintro ⟨hwritable, hexecutable⟩
  rcases h.1.1.2 with h | h
  · rw [hexecutable] at h
    cases h
  · rw [hwritable] at h
    cases h

lemma parseHeader_sound {len : ℕ} {header : List UInt8} {state state' : PlanState}
    (h : parseHeader len header state = .ok state') (hsound : state.plan.Sound len) : state'.plan.Sound len := by
  unfold parseHeader at h
  split at h
  · cases h
    exact hsound
  obtain ⟨hrejected, h⟩ := ite_eq_ok.mp h
  cases (ite_eq_ok.mp h).2
  intro segment hsegment
  rcases List.mem_append.mp hsegment with hsegment | hsegment
  · exact hsound segment hsegment
  · rw [List.mem_singleton.mp hsegment]
    exact sound_of_not_segmentRejected (Bool.eq_false_iff.mpr hrejected)

lemma parseHeaders_sound {len : ℕ} {headerAt : ℕ → Except ProcessError (List UInt8)} :
    ∀ {count index : ℕ} {state state' : PlanState}, parseHeaders len headerAt count index state = .ok state' →
      state.plan.Sound len → state'.plan.Sound len
  | 0, _, _, _, h, hsound => by
    cases h
    exact hsound
  | count + 1, _, _, _, h, hsound => by
    obtain ⟨header, -, h⟩ := bind_eq_ok.mp h
    obtain ⟨state, hstate, h⟩ := bind_eq_ok.mp h
    exact parseHeaders_sound h (parseHeader_sound hstate hsound)

lemma ElfLoadPlan.parseProgram_sound {reader : ImageReader} {entry phOffset phEntrySize phCount : ℕ} {plan : ElfLoadPlan}
    (h : parseProgram reader entry phOffset phEntrySize phCount = .ok plan) : plan.Sound reader.len := by
  obtain ⟨table, -, h⟩ := bind_eq_ok.mp h
  obtain ⟨state, hstate, h⟩ := bind_eq_ok.mp h
  cases (ite_eq_ok.mp h).2
  exact parseHeaders_sound hstate fun segment hsegment => absurd hsegment List.not_mem_nil

/-- **A plan that the parser accepts is sound** for the file that was read. -/
theorem ElfLoadPlan.parseReader_sound {reader : ImageReader} {plan : ElfLoadPlan} (h : parseReader reader = .ok plan) :
    plan.Sound reader.len := by
  obtain ⟨header, -, h⟩ := bind_eq_ok.mp (ite_eq_ok.mp h).2
  exact parseProgram_sound (ite_eq_ok.mp (ite_eq_ok.mp h).2).2

end LogOS.Memory
