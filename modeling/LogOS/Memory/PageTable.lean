import LogOS.Lib.Op
import Mathlib.Logic.Function.Basic
import Mathlib.Data.Nat.Bitwise

/-!
# Page tables

The builder of the four-level page tables of a process, over a memory of table frames and a pool of free frames.  The tables that
it builds stand for a map from virtual pages to frames with permissions: what the processor finds in user mode, walking the tables
from the root, is what the calls have mapped and not unmapped.  The entries that the root inherits from the kernel are closed to
user mode and are never followed by the builder.
-/

namespace LogOS.Memory

open Lib Op

/-! ## Entries -/

/-- A physical frame, by its address. -/
abbrev Frame := BitVec 64

def entryCount : ℕ := 512
def flagPresent : BitVec 64 := 1#64
def flagWritable : BitVec 64 := 1#64 <<< 1
def flagUser : BitVec 64 := 1#64 <<< 2
def flagHuge : BitVec 64 := 1#64 <<< 7
def flagNoExecute : BitVec 64 := 1#64 <<< 63
def addressMask : BitVec 64 := 0x000ffffffffff000#64
def userPml4Index : ℕ := 2

/-- `MAX_LOAD_PAGES`: the pages of the largest image, of the stack, and one for each program header. -/
def maxLoadPages : ℕ := 2048 * 1024 / 4096 + 8 + 16

def serviceHeapInitialPages : ℕ := 4

def maxPageTableFrames : ℕ := 1 + (maxLoadPages + serviceHeapInitialPages + 1) * 3

inductive PageTableError where
  | capacity | exhausted | memory | invalidMapping | invalidVirtualAddress | invalidFrame | invalidFlags | conflict
  deriving DecidableEq, Repr

structure MappingFlags where
  user : Bool
  writable : Bool
  executable : Bool
  deriving DecidableEq, Repr

structure LoadedPage where
  virtualAddress : ℕ
  frame : Frame
  flags : MappingFlags
  deriving DecidableEq

def LoadedPage.fromParts (virtualAddress : ℕ) (frame : Frame) (flags : MappingFlags) : Option LoadedPage :=
  if virtualAddress % 4096 = 0 then some ⟨virtualAddress, frame, flags⟩ else none

/-! ## The builder -/

/-- A builder, with the pool and the memory it works on.  The frames are those of its tables, the root first. -/
structure Space where
  pool : List Frame
  memory : Frame → ℕ → BitVec 64
  frames : List Frame
  root : Frame
  mappedPages : ℕ

abbrev PageOp := Op Space PageTableError

def readEntry (table : Frame) (index : ℕ) : PageOp (BitVec 64) := do
  let s ← Op.get
  return s.memory table index

def writeTo (memory : Frame → ℕ → BitVec 64) (table : Frame) (index : ℕ) (value : BitVec 64) : Frame → ℕ → BitVec 64 :=
  Function.update memory table (Function.update (memory table) index value)

def writeEntry (table : Frame) (index : ℕ) (value : BitVec 64) : PageOp Unit :=
  Op.modify fun s => { s with memory := writeTo s.memory table index value }

def clearFrame (memory : Frame → ℕ → BitVec 64) (frame : Frame) : Frame → ℕ → BitVec 64 := Function.update memory frame fun _ => 0#64

/-- The kernel's root as a new root inherits it. -/
def sanitizeInheritedRoot (kernelRoot : ℕ → BitVec 64) (index : ℕ) : BitVec 64 :=
  if index = userPml4Index then 0#64 else kernelRoot index &&& ~~~ flagUser

/-- `new_for_owner`, with a memory that copies the kernel's root. -/
def newForOwner (kernelRoot : ℕ → BitVec 64) (pool : List Frame) (memory : Frame → ℕ → BitVec 64) : Except PageTableError Space :=
  match pool with
  | [] => .error .exhausted
  | root :: pool =>
    .ok ⟨pool, Function.update (clearFrame memory root) root (sanitizeInheritedRoot kernelRoot), [root], root, 0⟩

def allocateTable : PageOp Frame := do
  let s ← Op.get
  Op.guard (s.frames.length != maxPageTableFrames) .capacity
  match s.pool with
  | [] => Op.fail .exhausted
  | frame :: pool => do
    Op.modify fun s => { s with pool, memory := clearFrame s.memory frame, frames := s.frames ++ [frame] }
    return frame

/-- The virtual address is that of a page of the lower half, and not the first one. -/
def validVirtualAddress (virtualAddress : ℕ) : Bool :=
  virtualAddress != 0 && virtualAddress % 4096 == 0 && decide (virtualAddress < 0x0000800000000000)

def validatePage (page : LoadedPage) : Except PageTableError Unit :=
  if validVirtualAddress page.virtualAddress = false then .error .invalidVirtualAddress
  else if page.frame = 0#64 ∨ page.frame &&& 0xfff#64 ≠ 0#64 ∨ page.frame &&& ~~~ addressMask ≠ 0#64 then .error .invalidFrame
  else if page.flags.user = false ∨ (page.flags.writable = true ∧ page.flags.executable = true) then .error .invalidFlags
  else .ok ()

def tableIndex (virtualAddress shift : ℕ) : ℕ := (virtualAddress >>> shift) &&& 0x1ff

/-- The indices of a virtual address in the three upper tables. -/
def upperIndices (virtualAddress : ℕ) : List ℕ := [tableIndex virtualAddress 39, tableIndex virtualAddress 30, tableIndex virtualAddress 21]

def leafIndex (virtualAddress : ℕ) : ℕ := tableIndex virtualAddress 12

def childEntry (child : Frame) : BitVec 64 := child ||| flagPresent ||| flagWritable ||| flagUser

/-- The loop of `map_page` over the upper tables: the table that the indices lead to, with the tables that are missing. -/
def tableFor : List ℕ → Frame → PageOp Frame
  | [], table => pure table
  | index :: rest, table => do
    let entry ← readEntry table index
    if entry &&& flagPresent ≠ 0#64 then do
      Op.guard (!(entry &&& flagHuge != 0#64 || entry &&& addressMask == 0#64)) .conflict
      let s ← Op.get
      Op.guard (s.frames.contains (entry &&& addressMask)) .memory
      tableFor rest (entry &&& addressMask)
    else do
      let child ← allocateTable
      writeEntry table index (childEntry child)
      tableFor rest child

def leafEntry (frame : Frame) (writable executable : Bool) : BitVec 64 :=
  let leaf := frame ||| flagPresent ||| flagUser
  let leaf := if writable then leaf ||| flagWritable else leaf
  if executable then leaf else leaf ||| flagNoExecute

def mapPage (page : LoadedPage) : PageOp Unit := do
  Op.lift (validatePage page)
  let s ← Op.get
  let table ← tableFor (upperIndices page.virtualAddress) s.root
  let entry ← readEntry table (leafIndex page.virtualAddress)
  Op.guard (entry &&& flagPresent == 0#64) .conflict
  writeEntry table (leafIndex page.virtualAddress) (leafEntry page.frame page.flags.writable page.flags.executable)
  Op.modify fun s => { s with mappedPages := s.mappedPages + 1 }

def mapRawPage (virtualAddress : ℕ) (frame : Frame) (flags : MappingFlags) : PageOp Unit := do
  let page ← Op.orFail (LoadedPage.fromParts virtualAddress frame flags) .invalidMapping
  mapPage page

def mapImage (pages : List LoadedPage) : PageOp Unit := Op.forEach mapPage pages

/-- The loop of `unmap_page` over the upper tables. -/
def findTable : List ℕ → Frame → PageOp Frame
  | [], table => pure table
  | index :: rest, table => do
    let entry ← readEntry table index
    Op.guard (!(entry &&& flagPresent == 0#64 || entry &&& flagHuge != 0#64 || entry &&& addressMask == 0#64)) .invalidMapping
    let s ← Op.get
    Op.guard (s.frames.contains (entry &&& addressMask)) .memory
    findTable rest (entry &&& addressMask)

def unmapPage (virtualAddress : ℕ) : PageOp Frame := do
  Op.guard (validVirtualAddress virtualAddress) .invalidVirtualAddress
  let s ← Op.get
  let table ← findTable (upperIndices virtualAddress) s.root
  let entry ← readEntry table (leafIndex virtualAddress)
  Op.guard (!(entry &&& flagPresent == 0#64 || entry &&& addressMask == 0#64)) .invalidMapping
  writeEntry table (leafIndex virtualAddress) 0#64
  Op.modify fun s => { s with mappedPages := s.mappedPages - 1 }
  return entry &&& addressMask

def Space.reclaim (s : Space) : Space := { s with pool := s.frames ++ s.pool, frames := [], mappedPages := 0 }

/-! ## The walk of the processor -/

/-- What a virtual page is translated to in user mode. -/
structure Translation where
  frame : Frame
  writable : Bool
  executable : Bool
  deriving DecidableEq

/-- The walk in user mode: every entry on the way is present and open to the user, a write needs the right on every level, and
one level is enough to forbid execution.  A large page ends the walk early. -/
def walk (memory : Frame → ℕ → BitVec 64) : List ℕ → Frame → Bool → Bool → Option Translation
  | [], _, _, _ => none
  | index :: rest, table, writable, executable =>
    let entry := memory table index
    if entry &&& flagPresent = 0#64 ∨ entry &&& flagUser = 0#64 then none
    else
      let writable := writable && entry &&& flagWritable != 0#64
      let executable := executable && entry &&& flagNoExecute == 0#64
      match rest with
      | [] => some ⟨entry &&& addressMask, writable, executable⟩
      | _ :: _ =>
        if entry &&& flagHuge ≠ 0#64 then
          let offset := rest.foldl (fun offset index => offset * 512 + index) 0
          let base := (entry &&& addressMask).toNat / (4096 * 512 ^ rest.length) * (4096 * 512 ^ rest.length)
          some ⟨BitVec.ofNat 64 (base + offset * 4096), writable, executable⟩
        else walk memory rest (entry &&& addressMask) writable executable

/-- The translation of a virtual page in user mode; a virtual address has 48 bits. -/
def Space.translation (s : Space) (virtualAddress : ℕ) : Option Translation :=
  if virtualAddress % 4096 = 0 ∧ virtualAddress < 2 ^ 48 then
    walk s.memory (upperIndices virtualAddress ++ [leafIndex virtualAddress]) s.root true true
  else none

/-- The tables that a walk in user mode reads, by level. -/
inductive Space.TableAt (s : Space) : ℕ → Frame → Prop
  | root : s.TableAt 0 s.root
  | child {level : ℕ} {table : Frame} {index : ℕ} (h : s.TableAt level table) (hlevel : level < 3) (hindex : index < entryCount)
      (hpresent : s.memory table index &&& flagPresent ≠ 0#64) (huser : s.memory table index &&& flagUser ≠ 0#64) :
      s.TableAt (level + 1) (s.memory table index &&& addressMask)

end LogOS.Memory
