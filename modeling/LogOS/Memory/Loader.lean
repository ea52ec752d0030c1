import LogOS.Memory.Elf
import Mathlib.Data.Set.Insert
import Mathlib.Data.List.Nodup

/-!
# The loader

The loader of user programs: it takes a frame from a pool for every page that a segment touches and for every page of the stack,
and then fills the pages from the file.  The bytes of a loaded program are those of the file where a segment has bytes in the file,
and zero elsewhere.  The three copies of the loop that fills the pages differ in where the bytes come from and in how a page is
addressed; they are one loop with parameters.
-/

namespace LogOS.Memory

open Lib Op

/-- `USER_STACK_BASE` -/
def userStackBase : ℕ := 0x0000010001000000

/-- `MappingFlags::DATA` -/
def dataFlags : MappingFlags := ⟨true, true, false⟩

inductive LoadError where
  | invalidPlan | capacity | exhausted | overlap | write | read
  deriving DecidableEq, Repr

inductive FramePoolError where
  | invalidMap | exhausted
  deriving DecidableEq, Repr

/-! ## Pools -/

/-- A pool of frames, as its callers know it: an allocation takes a free frame out of the pool, or changes nothing, and the release
of a frame that is taken puts it back. -/
structure FramePool where
  State : Type
  free : State → Set Frame
  taken : State → Set Frame
  allocateFor : ℕ → State → Except FramePoolError Frame × State
  release : Frame → State → State
  not_taken : ∀ s, ∀ frame ∈ free s, frame ∉ taken s
  allocateFor_ok : ∀ {owner s frame s'}, allocateFor owner s = (.ok frame, s') →
    frame ∈ free s ∧ free s' = free s \ {frame} ∧ taken s' = insert frame (taken s)
  allocateFor_error : ∀ {owner s e s'}, allocateFor owner s = (.error e, s') → free s' = free s ∧ taken s' = taken s
  release_taken : ∀ {s frame}, frame ∈ taken s →
    free (release frame s) = insert frame (free s) ∧ taken (release frame s) = taken s \ {frame}

/-! ## Loading -/

/-- `address & !(PAGE_SIZE - 1)` -/
def pageStart (address : ℕ) : ℕ := address / 4096 * 4096

def alignUp (address : ℕ) : Option ℕ := if address + 4095 < 2 ^ 64 then some (pageStart (address + 4095)) else none

/-- `(first..last).step_by(PAGE_SIZE)` -/
def pageAddresses (first last : ℕ) : List ℕ := (List.range ((last - first + 4095) / 4096)).map (first + 4096 * ·)

/-- An image that is being loaded, with the pool. -/
structure Loading (P : FramePool) where
  pool : P.State
  pages : List LoadedPage

structure LoadedImage where
  entry : ℕ
  stackTop : ℕ
  pages : List LoadedPage

section Load

variable {P : FramePool}

def Loading.reclaim (s : Loading P) : Loading P := ⟨s.pages.foldl (fun pool page => P.release page.frame pool) s.pool, []⟩

/-- A failure, after the frames have been returned. -/
def abandon (error : LoadError) : Op (Loading P) LoadError Unit := do
  Op.modify Loading.reclaim
  Op.fail error

def LoadError.ofPool : FramePoolError → LoadError
  | .exhausted => .exhausted
  | .invalidMap => .invalidPlan

def pushPage (virtualAddress : ℕ) (flags : MappingFlags) (owner : ℕ) : Op (Loading P) LoadError Unit := do
  let s ← Op.get
  if s.pages.length = maxLoadPages then abandon .capacity
  else
    match P.allocateFor owner s.pool with
    | (.error error, pool) => do
      Op.modify fun s => { s with pool }
      abandon (LoadError.ofPool error)
    | (.ok frame, pool) => Op.modify fun s => ⟨pool, s.pages ++ [⟨virtualAddress, frame, flags⟩]⟩

/-- The loop over the pages of a segment. -/
def loadPage (flags : MappingFlags) (owner virtualAddress : ℕ) : Op (Loading P) LoadError Unit := do
  let s ← Op.get
  if s.pages.any (·.virtualAddress == virtualAddress) then abandon .overlap else pushPage virtualAddress flags owner

/-- The loop over the segments. -/
def loadSegment (owner : ℕ) (segment : LoadSegment) : Op (Loading P) LoadError Unit :=
  if segment.virtualEnd ≥ 2 ^ 64 then abandon .invalidPlan
  else
    match alignUp segment.virtualEnd with
    | none => abandon .invalidPlan
    | some last => Op.forEach (loadPage segment.flags owner) (pageAddresses (pageStart segment.virtualAddress) last)

def loadStackPage (owner offset : ℕ) : Op (Loading P) LoadError Unit := pushPage (userStackBase + offset * 4096) dataFlags owner

def loadPages (plan : ElfLoadPlan) (stackPages owner : ℕ) : Op (Loading P) LoadError Unit := do
  Op.forEach (loadSegment owner) plan.segments
  Op.forRange (loadStackPage owner) 0 stackPages

end Load

def loadWithStackPagesForOwner (P : FramePool) (plan : ElfLoadPlan) (stackPages owner : ℕ) (pool : P.State) :
    Except LoadError LoadedImage × P.State :=
  if stackPages * 4096 ≥ 2 ^ 64 then (.error .capacity, pool)
  else if userStackBase + stackPages * 4096 ≥ 2 ^ 64 then (.error .capacity, pool)
  else
    match loadPages plan stackPages owner ⟨pool, []⟩ with
    | (.error error, s) => (.error error, s.pool)
    | (.ok (), s) => (.ok ⟨plan.entry, userStackBase + stackPages * 4096, s.pages⟩, s.pool)

/-! ## Filling the pages -/

/-- The memory that pages are filled in, which are named by keys. -/
abbrev PageMemory (K : Type) := K → ℕ → UInt8

section Populate

variable {K : Type} [DecidableEq K]

def clearPage (key : K) (memory : PageMemory K) : PageMemory K := Function.update memory key fun _ => 0

def writeBytes (key : K) (offset : ℕ) (bytes : List UInt8) (memory : PageMemory K) : PageMemory K :=
  Function.update memory key fun i =>
    if offset ≤ i ∧ i < offset + bytes.length then bytes.getD (i - offset) 0 else memory key i

def LoadedImage.pageForVirtual (loaded : LoadedImage) (virtualAddress : ℕ) : Option LoadedPage :=
  loaded.pages.find? (·.virtualAddress == virtualAddress)

variable (key : LoadedPage → K) (fetch : LoadSegment → ℕ → ℕ → Except LoadError (List UInt8)) (loaded : LoadedImage)

/-- The copy into one page of a segment: `fetch segment offset n` are `n` bytes of the file part of the segment. -/
def populatePage (segment : LoadSegment) (pageAddress : ℕ) : Op (PageMemory K) LoadError Unit := do
  let page ← Op.orFail (loaded.pageForVirtual pageAddress) .invalidPlan
  let overlapStart := max pageAddress segment.virtualAddress
  let overlapEnd := min (pageAddress + 4096) segment.virtualEnd
  if overlapStart ≥ overlapEnd then pure ()
  else
    let fileOffset := overlapStart - segment.virtualAddress
    if fileOffset ≥ segment.fileSize then pure ()
    else do
      let bytes ← Op.lift (fetch segment fileOffset (min (overlapEnd - overlapStart) (segment.fileSize - fileOffset)))
      Op.modify (writeBytes (key page) (overlapStart - pageAddress) bytes)

def populateSegment (segment : LoadSegment) : Op (PageMemory K) LoadError Unit :=
  if segment.virtualEnd ≥ 2 ^ 64 then Op.fail .invalidPlan
  else
    match alignUp segment.virtualEnd with
    | none => Op.fail .invalidPlan
    | some last =>
      Op.forEach (populatePage key fetch loaded segment) (pageAddresses (pageStart segment.virtualAddress) last)

/-- The common part of the three functions: the pages are cleared, and then the segments are copied. -/
def populateWith (plan : ElfLoadPlan) : Op (PageMemory K) LoadError Unit := do
  Op.forEach (fun page => Op.modify (clearPage (key page))) loaded.pages
  Op.forEach (populateSegment key fetch loaded) plan.segments

end Populate

/-- Bytes of the file part of a segment, cut out of the image. -/
def fetchBytes (image : List UInt8) (segment : LoadSegment) (offset n : ℕ) : Except LoadError (List UInt8) :=
  match segment.fileBytes image with
  | none => .error .invalidPlan
  | some bytes => .ok (slice bytes offset (offset + n))

/-- Bytes of the file part of a segment, asked from a reader. -/
def fetchRead (reader : ImageReader) (segment : LoadSegment) (offset n : ℕ) : Except LoadError (List UInt8) :=
  match reader.read (segment.fileOffset + offset) n with
  | .error _ => .error .read
  | .ok bytes => if bytes.length = n then .ok bytes else .error .read

namespace LoadedImage

def populate (loaded : LoadedImage) (plan : ElfLoadPlan) (image : List UInt8) : Op (PageMemory Frame) LoadError Unit := do
  Op.guard (plan.entry == loaded.entry) .invalidPlan
  Op.guard (plan.segments.all fun segment => (segment.fileBytes image).isSome) .invalidPlan
  populateWith (·.frame) (fetchBytes image) loaded plan

def populateReader (loaded : LoadedImage) (plan : ElfLoadPlan) (reader : ImageReader) (scratch : ℕ) :
    Op (PageMemory Frame) LoadError Unit := do
  Op.guard (plan.entry == loaded.entry && decide (4096 ≤ scratch)) .invalidPlan
  Op.guard (plan.segments.all fun segment => decide (segment.fileOffset + segment.fileSize < 2 ^ 64) &&
    decide (segment.fileOffset + segment.fileSize ≤ reader.len)) .invalidPlan
  populateWith (·.frame) (fetchRead reader) loaded plan

def populateVirtual (loaded : LoadedImage) (plan : ElfLoadPlan) (image : List UInt8) : Op (PageMemory ℕ) LoadError Unit := do
  Op.guard (plan.entry == loaded.entry) .invalidPlan
  Op.guard (plan.segments.all fun segment => (segment.fileBytes image).isSome) .invalidPlan
  populateWith (·.virtualAddress) (fetchBytes image) loaded plan

end LoadedImage

/-! ## The pages of a segment -/

namespace LoadSegment

/-- The segment has a byte on the page. -/
def Touches (segment : LoadSegment) (page : ℕ) : Prop :=
  page % 4096 = 0 ∧ segment.virtualAddress < page + 4096 ∧ page < segment.virtualEnd

/-- The address lies in the part of the segment that the file has. -/
def InFile (segment : LoadSegment) (address : ℕ) : Prop :=
  segment.virtualAddress ≤ address ∧ address < segment.virtualAddress + segment.fileSize

instance (segment : LoadSegment) (page : ℕ) : Decidable (segment.Touches page) := by unfold Touches; infer_instance

/-- The pages of the segment, in order. -/
def pages (segment : LoadSegment) : List ℕ :=
  pageAddresses (pageStart segment.virtualAddress) (pageStart (segment.virtualEnd + 4095))

lemma mem_pages {segment : LoadSegment} {page : ℕ} (h : 0 < segment.memorySize) :
    page ∈ segment.pages ↔ segment.Touches page := by
  simp only [pages, pageAddresses, pageStart, List.mem_map, List.mem_range, Touches]
  constructor
  · omega
  · rintro ⟨haligned, hlow, hhigh⟩
    exact ⟨(page - segment.virtualAddress / 4096 * 4096) / 4096, by omega, by omega⟩

end LoadSegment

lemma alignUp_of_sound {len : ℕ} {segment : LoadSegment} (h : segment.Sound len) :
    ¬ segment.virtualEnd ≥ 2 ^ 64 ∧ alignUp segment.virtualEnd = some (pageStart (segment.virtualEnd + 4095)) := by
  have := h.high
  exact ⟨by omega, by rw [alignUp, if_pos (by omega)]⟩

end LogOS.Memory
