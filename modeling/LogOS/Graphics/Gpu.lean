import LogOS.Lib.Op
import LogOS.Graphics.PresentState

/-!
# Frames of the VirtIO GPU

`VirtioGpuDevice` keeps two copies of the framebuffer, each with a resource of the device behind it.  A frame is copied into
the slot that is not shown, its rectangles are transferred to the resource one after the other, and then the slot is scanned
out.  Only the rectangles of the latest publication are copied, although the slot last held an older frame, or none at all.

Display and the driver interleave publications and calls of `present`.  If the rectangles of a publication cover every pixel
in which the framebuffer differs from what either slot holds, the picture shown for it is the framebuffer.
-/

namespace LogOS.Graphics

open Lib Function List UInt32

/-! ## Frame slots -/

inductive FrameQueueError where
  | full
  | invalidLease
  | staleLease
  deriving DecidableEq, Repr

inductive FrameSlotState where
  | free
  | building (token sequence : UInt32)
  | submitted (token sequence : UInt32)
  | presented (sequence : UInt32)
  deriving DecidableEq, Repr

structure FrameLease (slots : ℕ) where
  slot : Fin slots
  token : UInt32
  sequence : UInt32
  deriving DecidableEq, Repr

structure FrameQueue (slots : ℕ) where
  states : Fin slots → FrameSlotState
  nextToken : UInt32
  active : Option (Fin slots)

namespace FrameQueue

variable {slots : ℕ}

def new : FrameQueue slots := ⟨fun _ => .free, 1, none⟩

def presentInitial (q : FrameQueue slots) (slot : Fin slots) (sequence : UInt32) : FrameQueue slots :=
  { q with states := Function.update q.states slot (.presented sequence), active := some slot }

/-- The first free slot is built next. -/
def acquire (q : FrameQueue slots) (sequence : UInt32) : Except FrameQueueError (FrameLease slots × FrameQueue slots) :=
  match (List.finRange slots).find? fun i => q.states i = .free with
  | none => .error .full
  | some slot =>
    .ok (⟨slot, q.nextToken, sequence⟩, { q with
      nextToken := max (q.nextToken + 1) 1
      states := Function.update q.states slot (.building q.nextToken sequence) })

def submit (q : FrameQueue slots) (lease : FrameLease slots) : Except FrameQueueError (FrameQueue slots) :=
  match q.states lease.slot with
  | .building token sequence =>
    if token = lease.token ∧ sequence = lease.sequence then
      .ok { q with states := Function.update q.states lease.slot (.submitted lease.token lease.sequence) }
    else .error .staleLease
  | _ => .error .invalidLease

/-- The slot that was shown before becomes free. -/
def complete (q : FrameQueue slots) (lease : FrameLease slots) : Except FrameQueueError (FrameQueue slots) :=
  match q.states lease.slot with
  | .submitted token sequence =>
    if token = lease.token ∧ sequence = lease.sequence then
      let states := match q.active with
        | some active => if active ≠ lease.slot then Function.update q.states active .free else q.states
        | none => q.states
      .ok { q with states := Function.update states lease.slot (.presented lease.sequence), active := some lease.slot }
    else .error .staleLease
  | _ => .error .invalidLease

end FrameQueue

/-! ## Images and rectangles -/

/-- The colours of the pixels, by column and row. -/
abbrev Image : Type := ℕ → ℕ → UInt32

structure VirtioGpuRect where
  x : ℕ
  y : ℕ
  width : ℕ
  height : ℕ
  deriving DecidableEq, Repr

namespace VirtioGpuRect

def new (x y width height : ℕ) : Option VirtioGpuRect :=
  if width = 0 ∨ height = 0 then none
  else if 2 ^ 32 ≤ x + width ∨ 2 ^ 32 ≤ y + height then none
  else some ⟨x, y, width, height⟩

def Contains (r : VirtioGpuRect) (x y : ℕ) : Prop := r.x ≤ x ∧ x < r.x + r.width ∧ r.y ≤ y ∧ y < r.y + r.height

instance (r : VirtioGpuRect) (x y : ℕ) : Decidable (r.Contains x y) := inferInstanceAs (Decidable (_ ∧ _))

end VirtioGpuRect

/-- The pixels of a rectangle are taken from the source. -/
def copyRect (source destination : Image) (r : VirtioGpuRect) : Image :=
  fun x y => if r.Contains x y then source x y else destination x y

/-- `FramebufferInfo`: the lines of the framebuffer are at least as long as the screen is wide. -/
structure Screen where
  width : ℕ
  height : ℕ
  stride : ℕ
  width_le : width ≤ stride

/-- The images have the same pixels. -/
def Screen.Same (screen : Screen) (a b : Image) : Prop := ∀ x < screen.stride, ∀ y < screen.height, a x y = b x y

/-! ## The device -/

inductive GpuError where
  | busy
  | timeout
  | invalidFramebuffer
  deriving DecidableEq, Repr

structure FrameRect where
  transfer : VirtioGpuRect
  flush : VirtioGpuRect
  deriving DecidableEq, Repr

inductive FramePhase where
  | transfer
  | flush
  | scanout
  deriving DecidableEq, Repr

structure PendingFrame where
  lease : FrameLease 2
  phase : FramePhase
  rects : List FrameRect
  rectIndex : ℕ
  deriving DecidableEq, Repr

/-- The driver's fields that frames depend on, its copies of the framebuffer, and the resources and the scanout of the
device. -/
structure GpuDevice where
  screen : Screen
  frameQueue : FrameQueue 2
  pendingFrame : Option PendingFrame
  lastPresentSequence : Option UInt32
  frameMemory : Fin 2 → Image
  resource : Fin 2 → Image
  scanout : Fin 2

/-- A snapshot of the present state: the sequence number, whether all was changed, and the rectangles. -/
abbrev PresentSnapshot : Type := UInt32 × Bool × List GuiRect

namespace GpuDevice

/-- `self.framebuffer`. -/
def framebufferRect (d : GpuDevice) : VirtioGpuRect := ⟨0, 0, d.screen.width, d.screen.height⟩

/-- `self.transfer`. -/
def transferRect (d : GpuDevice) : VirtioGpuRect := ⟨0, 0, d.screen.stride, d.screen.height⟩

def presentRect (d : GpuDevice) (rect : GuiRect) : Except GpuError VirtioGpuRect :=
  if rect.x < 0 ∨ rect.y < 0 then .error .invalidFramebuffer
  else match VirtioGpuRect.new rect.x.toInt.toNat rect.y.toInt.toNat rect.width.toNat rect.height.toNat with
    | none => .error .invalidFramebuffer
    | some r =>
      if d.screen.width < r.x + r.width ∨ d.screen.height < r.y + r.height then .error .invalidFramebuffer else .ok r

/-- All is copied: it was published so, or nothing else was published, or nothing was shown yet. -/
def copiesAll (d : GpuDevice) (state : PresentSnapshot) : Bool :=
  state.2.1 || state.2.2.all GuiRect.isEmpty || d.lastPresentSequence.isNone

/-- The rectangles to be copied and transferred. -/
def frameRects (d : GpuDevice) (state : PresentSnapshot) : Except GpuError (List FrameRect) :=
  if d.copiesAll state then .ok [⟨d.transferRect, d.framebufferRect⟩]
  else (state.2.2.filter fun rect => !rect.isEmpty).mapM fun rect => do
    let r ← d.presentRect rect
    return ⟨r, r⟩

/-- `copy_frame`: the bytes of a slot after it. -/
def copyFrame (framebuffer memory : Image) (full : Bool) (rects : List FrameRect) : Image :=
  if full then framebuffer
  else rects.foldl (fun destination rect => copyRect framebuffer destination rect.transfer) memory

/-- `TransferToHost2d`, as the device carries it out. -/
def transferToHost2d (slot : Fin 2) (rect : VirtioGpuRect) (d : GpuDevice) : GpuDevice :=
  { d with resource := Function.update d.resource slot (copyRect (d.frameMemory slot) (d.resource slot) rect) }

def startFrame (framebuffer : Image) (state : PresentSnapshot) : Op GpuDevice GpuError Unit := do
  let d ← Op.get
  let full := d.copiesAll state
  let rects ← Op.lift (d.frameRects state)
  if rects = [] then return ()
  let (lease, queue) ← Op.lift ((d.frameQueue.acquire state.1).mapError fun error =>
    match error with
    | .full => .busy
    | _ => .timeout)
  Op.modify fun d => { d with
    frameQueue := queue
    frameMemory :=
      Function.update d.frameMemory lease.slot (copyFrame framebuffer (d.frameMemory lease.slot) full rects) }
  let queue ← Op.lift ((queue.submit lease).mapError fun _ => .timeout)
  Op.modify fun d => { d with
    frameQueue := queue
    pendingFrame := some ⟨lease, .transfer, rects, 0⟩ }

/-- The next step of the pending frame, if its last command has completed. -/
def pollPendingFrame (completed : Bool) : Op GpuDevice GpuError Unit := do
  let d ← Op.get
  match d.pendingFrame with
  | none => return ()
  | some pending =>
    if !completed then return ()
    match pending.phase with
    | .transfer =>
      Op.modify fun d =>
        { transferToHost2d pending.lease.slot ((pending.rects[pending.rectIndex]?.map (·.transfer)).getD ⟨0, 0, 0, 0⟩) d with
          pendingFrame := some { pending with phase := .flush } }
    | .flush =>
      if pending.rectIndex + 1 < pending.rects.length then
        Op.modify fun d =>
          { d with pendingFrame := some { pending with phase := .transfer, rectIndex := pending.rectIndex + 1 } }
      else
        Op.modify fun d => { d with pendingFrame := some { pending with phase := .scanout } }
    | .scanout =>
      Op.modify fun d => { d with scanout := pending.lease.slot }
      let queue ← Op.lift ((d.frameQueue.complete pending.lease).mapError fun _ => .timeout)
      Op.modify fun d => { d with
        frameQueue := queue
        lastPresentSequence := some pending.lease.sequence
        pendingFrame := none }

def present (framebuffer : Image) (state : Option PresentSnapshot) (completed : Bool) : Op GpuDevice GpuError Unit := do
  pollPendingFrame completed
  let d ← Op.get
  match state with
  | none => return ()
  | some state =>
    if d.lastPresentSequence ≠ some state.1 ∧ d.pendingFrame.isNone then startFrame framebuffer state else return ()

/-- What `VirtioGpuDevice::initialize` leaves: the first slot has the framebuffer and is shown, the second has never been written. -/
def initialized (screen : Screen) (framebuffer : Image) (state : Option PresentSnapshot) : GpuDevice where
  screen := screen
  frameQueue := FrameQueue.new.presentInitial 0 ((state.map (·.1)).getD 0)
  pendingFrame := none
  lastPresentSequence := state.map (·.1)
  frameMemory := Function.update (fun _ _ _ => 0) 0 framebuffer
  resource := Function.update (fun _ _ _ => 0) 0 framebuffer
  scanout := 0

end GpuDevice

/-! ## Display and the driver -/

/-- The pixel is in the rectangle. -/
def GuiRect.Covers (r : GuiRect) (x y : ℕ) : Prop :=
  r.x.toInt ≤ x ∧ (x : ℤ) < r.x.toInt + r.width.toNat ∧ r.y.toInt ≤ y ∧ (y : ℤ) < r.y.toInt + r.height.toNat

/-- What Display does: it changes the framebuffer and publishes rectangles, or the whole frame. -/
structure FramePublication where
  framebuffer : Image
  full : Bool
  rects : List GuiRect

/-- The device, whether it is still in use, the framebuffer and the present state. -/
structure PresentSystem where
  device : GpuDevice
  ready : Bool
  framebuffer : Image
  state : PresentSnapshot
  publications : ℕ

namespace PresentSystem

/-- The device was just initialised, with or without a snapshot of the present state. -/
def start (screen : Screen) (framebuffer : Image) (state : PresentSnapshot) (known : Bool) : PresentSystem where
  device := .initialized screen framebuffer (if known then some state else none)
  ready := true
  framebuffer := framebuffer
  state := state
  publications := 0

/-- The framebuffer is changed and published; a snapshot now gives these rectangles. -/
def publish (s : PresentSystem) (p : FramePublication) : PresentSystem :=
  { s with
    framebuffer := p.framebuffer
    state := (s.state.1 + 1, publishFull p.full p.rects,
      p.rects.take (publishCount p.full p.rects) ++ emptyRects (maxPresentRects - publishCount p.full p.rects))
    publications := s.publications + 1 }

/-- The device is given up after an error other than `Busy`. -/
def present (s : PresentSystem) (completed : Bool) : PresentSystem :=
  if s.ready then
    match s.device.present s.framebuffer (some s.state) completed with
    | (.ok _, device) => { s with device := device }
    | (.error .busy, device) => { s with device := device }
    | (.error _, device) => { s with device := device, ready := false }
  else s

/-- Display changes nothing outside the rectangles that it publishes. -/
def Draws (s : PresentSystem) (p : FramePublication) : Prop :=
  publishFull p.full p.rects = true ∨ ∀ x < s.device.screen.stride, ∀ y < s.device.screen.height,
    p.framebuffer x y ≠ s.framebuffer x y → ∃ r ∈ p.rects, r.Covers x y

/-- The systems reached when every publication meets a further condition on the system before it. -/
inductive Reached (Meets : PresentSystem → FramePublication → Prop) : PresentSystem → Prop where
  | start (screen : Screen) (framebuffer : Image) (state : PresentSnapshot) (known : Bool) :
      Reached Meets (start screen framebuffer state known)
  | publish {s : PresentSystem} (h : Reached Meets s) (p : FramePublication) (hdraws : s.Draws p) (hmeets : Meets s p) :
      Reached Meets (s.publish p)
  | present {s : PresentSystem} (h : Reached Meets s) (completed : Bool) : Reached Meets (s.present completed)

/-- The rectangles cover every pixel that differs from a slot, if not all is copied. -/
def Covering (s : PresentSystem) (p : FramePublication) : Prop :=
  s.publications + 1 < 2 ^ 32 ∧
    (publishFull p.full p.rects = true ∨ p.rects.all GuiRect.isEmpty = true ∨
      ∀ slot, ∀ x < s.device.screen.stride, ∀ y < s.device.screen.height,
        p.framebuffer x y ≠ s.device.frameMemory slot x y → ∃ r ∈ p.rects, r.Covers x y)

end PresentSystem

/-! ## What holds of the slots -/

/-- The first rectangle that is still to be transferred. -/
def PendingFrame.nextRect (p : PendingFrame) : ℕ :=
  match p.phase with
  | .transfer => p.rectIndex
  | .flush => p.rectIndex + 1
  | .scanout => p.rects.length

/-- The publications since the device was initialised, with the sequence number of the first moment. -/
structure History where
  base : UInt32
  image : ℕ → Image
  count : ℕ

/-- The sequence number after `k` publications. -/
def History.sequence (h : History) (k : ℕ) : UInt32 := h.base + UInt32.ofNat k

/-- One more publication. -/
def History.publish (h : History) (framebuffer : Image) : History :=
  ⟨h.base, Function.update h.image (h.count + 1) framebuffer, h.count + 1⟩

/-- The slot `a` is shown, and the slot `b` is free or holds the pending frame. -/
structure GpuDevice.Slots (d : GpuDevice) (h : History) (a b : Fin 2) : Prop where
  ne : a ≠ b
  active : d.frameQueue.active = some a
  shown : d.frameQueue.states a ≠ .free
  scanout : d.scanout = a
  same : d.screen.Same (d.resource a) (d.frameMemory a)
  /-- What is shown is the frame of the last sequence number. -/
  last : ∀ q, d.lastPresentSequence = some q → ∃ k ≤ h.count, q = h.sequence k ∧ d.screen.Same (d.resource a) (h.image k)
  idle : d.pendingFrame = none → d.frameQueue.states b = .free ∧ d.screen.Same (d.resource b) (d.frameMemory b)
  pending : ∀ p, d.pendingFrame = some p → p.lease.slot = b ∧
    d.frameQueue.states b = .submitted p.lease.token p.lease.sequence ∧
    (∃ k ≤ h.count, p.lease.sequence = h.sequence k ∧ d.screen.Same (d.frameMemory b) (h.image k)) ∧
    ∀ x < d.screen.stride, ∀ y < d.screen.height, d.resource b x y ≠ d.frameMemory b x y →
      ∃ r ∈ p.rects.drop p.nextRect, r.transfer.Contains x y

/-- The frame of the sequence number `q` is shown or pending. -/
def GpuDevice.Started (d : GpuDevice) (q : UInt32) : Prop :=
  (d.lastPresentSequence = some q ∧ d.pendingFrame = none) ∨ ∃ p, d.pendingFrame = some p ∧ p.lease.sequence = q

/-- Copying what the present state names makes any slot the framebuffer. -/
def GpuDevice.Suffices (d : GpuDevice) (framebuffer : Image) (state : PresentSnapshot) : Prop :=
  state.2.1 = true ∨ state.2.2.all GuiRect.isEmpty = true ∨ ∀ slot, ∀ x < d.screen.stride, ∀ y < d.screen.height,
    framebuffer x y ≠ d.frameMemory slot x y → ∃ r ∈ state.2.2, r.Covers x y

/-- The latest frame is on its way, or it can still be copied. -/
def GpuDevice.Follows (d : GpuDevice) (framebuffer : Image) (state : PresentSnapshot) : Prop :=
  d.Started state.1 ∨ (d.lastPresentSequence = none ∧ d.pendingFrame = none) ∨ d.Suffices framebuffer state

structure PresentSystem.Inv (s : PresentSystem) (h : History) : Prop where
  count : h.count = s.publications
  bound : s.publications < 2 ^ 32
  sequence : s.state.1 = h.sequence h.count
  latest : h.image h.count = s.framebuffer
  slots : ∃ a b, s.device.Slots h a b
  follows : s.device.Follows s.framebuffer s.state

namespace GpuDevice

variable {d : GpuDevice} {h : History} {a b : Fin 2} {framebuffer : Image} {state : PresentSnapshot}

/-! ### Copying -/

variable {x y : ℕ} {rects : List FrameRect}

lemma foldl_copyRect (source destination : Image) (rects : List FrameRect) (x y : ℕ) :
    rects.foldl (fun destination rect => copyRect source destination rect.transfer) destination x y =
      if ∃ r ∈ rects, r.transfer.Contains x y then source x y else destination x y := by
  induction rects generalizing destination with
  | nil => simp
  | cons r rects ih =>
    rw [foldl_cons, ih, copyRect]
    by_cases hr : r.transfer.Contains x y
    · simp [hr]
    · simp [hr]

lemma presentRect_covers {rect : GuiRect} {r : VirtioGpuRect} (hr : d.presentRect rect = .ok r)
    (hc : rect.Covers x y) : r.Contains x y := by
  replace hr := (ite_eq_ok.mp hr).2
  split at hr
  · cases hr
  rename_i r' hnew
  cases (ite_eq_ok.mp hr).2
  simp only [VirtioGpuRect.new, Option.ite_none_left_eq_some, Option.some.injEq] at hnew
  obtain ⟨-, -, rfl⟩ := hnew
  obtain ⟨h1, h2, h3, h4⟩ := hc
  refine ⟨?_, ?_, ?_, ?_⟩ <;> dsimp only <;> omega

lemma GuiRect.not_isEmpty {rect : GuiRect} (hc : rect.Covers x y) : rect.isEmpty = false := by
  obtain ⟨h1, h2, h3, h4⟩ := hc
  have hw : rect.width ≠ 0 := by
    intro hw
    rw [hw, UInt32.toNat_zero] at h2
    omega
  have hh : rect.height ≠ 0 := by
    intro hh
    rw [hh, UInt32.toNat_zero] at h4
    omega
  simp [GuiRect.isEmpty, hw, hh]

/-- The rectangles of a frame contain every pixel that the present state names. -/
theorem frameRects_covers (hrects : d.frameRects state = .ok rects)
    (hall : d.copiesAll state = false) (hc : ∃ r ∈ state.2.2, r.Covers x y) :
    ∃ r ∈ rects, r.transfer.Contains x y := by
  obtain ⟨rect, hmem, hcovers⟩ := hc
  unfold frameRects at hrects
  rw [hall] at hrects
  have hfilter : rect ∈ state.2.2.filter fun rect => !rect.isEmpty :=
    mem_filter.mpr ⟨hmem, by rw [GuiRect.not_isEmpty hcovers]; rfl⟩
  obtain ⟨r, hr, hrect⟩ := exists_of_mapM_eq_ok hrects rect hfilter
  obtain ⟨r', hr', hrect⟩ := bind_eq_ok.mp hrect
  cases hrect
  exact ⟨_, hr, presentRect_covers hr' hcovers⟩

/-- A frame that suffices makes a slot the framebuffer, and its rectangles contain every pixel that changes. -/
theorem copyFrame_spec (hrects : d.frameRects state = .ok rects)
    (hfollows : d.copiesAll state = true ∨ d.Suffices framebuffer state) (slot : Fin 2)
    (hx : x < d.screen.stride) (hy : y < d.screen.height) :
    copyFrame framebuffer (d.frameMemory slot) (d.copiesAll state) rects x y = framebuffer x y ∧
      (framebuffer x y ≠ d.frameMemory slot x y → ∃ r ∈ rects, r.transfer.Contains x y) := by
  cases hall : d.copiesAll state with
  | true =>
    unfold frameRects at hrects
    rw [hall] at hrects
    cases hrects
    exact ⟨rfl, fun _ => ⟨_, mem_singleton_self _, Nat.zero_le _, by simpa [transferRect] using hx, Nat.zero_le _,
      by simpa [transferRect] using hy⟩⟩
  | false =>
    have hcovers : framebuffer x y ≠ d.frameMemory slot x y → ∃ r ∈ rects, r.transfer.Contains x y := by
      intro hne
      refine frameRects_covers hrects hall ?_
      rcases hfollows with hfull | hfull | hempty | hcover
      · rw [hall] at hfull
        cases hfull
      · simp [copiesAll, hfull] at hall
      · rw [copiesAll, hempty, Bool.or_true] at hall
        cases hall
      · exact hcover slot x hx y hy hne
    refine ⟨?_, hcovers⟩
    rw [copyFrame, if_neg (by decide), foldl_copyRect]
    split
    · rfl
    · rename_i hnot
      by_contra hne
      exact hnot (hcovers (Ne.symm hne))

/-! ### The steps of a frame -/

variable {p : PendingFrame}

section

variable (hs : d.Slots h a b)
include hs

lemma Slots.acquire (hidle : d.pendingFrame = none) (sequence : UInt32) :
    d.frameQueue.acquire sequence = .ok (⟨b, d.frameQueue.nextToken, sequence⟩, { d.frameQueue with
      nextToken := max (d.frameQueue.nextToken + 1) 1
      states := update d.frameQueue.states b (.building d.frameQueue.nextToken sequence) }) := by
  have hfind : (finRange 2).find? (fun i => d.frameQueue.states i = .free) = some b := by
    obtain ⟨slot, hslot⟩ : ∃ slot, (finRange 2).find? (fun i => d.frameQueue.states i = .free) = some slot := by
      rw [← Option.isSome_iff_exists, find?_isSome]
      exact ⟨b, mem_finRange b, by simpa using (hs.idle hidle).1⟩
    have hfree : d.frameQueue.states slot = .free := by simpa using find?_some hslot
    have hne : slot ≠ a := by
      rintro rfl
      exact hs.shown hfree
    have hslotb : slot = b := by
      have := hs.ne
      omega
    rw [hslot, hslotb]
  rw [FrameQueue.acquire, hfind]

lemma Slots.complete (hp : d.pendingFrame = some p) :
    d.frameQueue.complete p.lease = .ok { d.frameQueue with
      states := update (update d.frameQueue.states a .free) b (.presented p.lease.sequence)
      active := some b } := by
  obtain ⟨hslot, hstate, -⟩ := hs.pending p hp
  rw [FrameQueue.complete, hslot, hstate]
  simp [hs.active, hs.ne]

/-- The transfer of a rectangle has completed. -/
theorem Slots.transferred (hp : d.pendingFrame = some p) (hphase : p.phase = .transfer)
    {rect : VirtioGpuRect} (hrect : rect = (p.rects[p.rectIndex]?.map (·.transfer)).getD ⟨0, 0, 0, 0⟩) :
    Slots { d.transferToHost2d b rect with pendingFrame := some { p with phase := .flush } } h a b where
  ne := hs.ne
  active := hs.active
  shown := hs.shown
  scanout := hs.scanout
  same := by
    show d.screen.Same (update d.resource b _ a) (d.frameMemory a)
    rw [update_of_ne hs.ne]
    exact hs.same
  last := by
    intro q hq
    obtain ⟨k, hk, hseq, hsame⟩ := hs.last q hq
    refine ⟨k, hk, hseq, ?_⟩
    show d.screen.Same (update d.resource b _ a) (h.image k)
    rw [update_of_ne hs.ne]
    exact hsame
  idle := nofun
  pending := by
    intro p' hp'
    cases hp'
    obtain ⟨hslot, hstate, himage, hleft⟩ := hs.pending p hp
    refine ⟨hslot, hstate, himage, fun x hx y hy hne => ?_⟩
    have hne' : copyRect (d.frameMemory b) (d.resource b) rect x y ≠ d.frameMemory b x y := by
      have hself : update d.resource b (copyRect (d.frameMemory b) (d.resource b) rect) b =
        copyRect (d.frameMemory b) (d.resource b) rect := update_self _ _ _
      rw [← hself]
      exact hne
    -- The rectangle was transferred, so the pixel is in a later one.
    have hout : ¬ rect.Contains x y := fun hin => hne' (if_pos hin)
    rw [copyRect, if_neg hout] at hne'
    obtain ⟨r, hr, hcontains⟩ := hleft x hx y hy hne'
    have hindex : p.nextRect = p.rectIndex := by rw [PendingFrame.nextRect, hphase]
    rw [hindex] at hr
    rcases hget : p.rects[p.rectIndex]? with _ | first
    · rw [drop_eq_nil_of_le (getElem?_eq_none_iff.mp hget)] at hr
      cases hr
    rw [drop_eq_getElem?_toList_append, hget] at hr
    rcases mem_append.mp hr with hr | hr
    · rw [hget] at hrect
      obtain rfl : r = first := by simpa using hr
      rw [hrect] at hout
      exact absurd hcontains hout
    · exact ⟨r, hr, hcontains⟩

/-- The pending frame goes on without a change of the slots. -/
theorem Slots.advanced {p' : PendingFrame} (hp : d.pendingFrame = some p) (hlease : p'.lease = p.lease)
    (hrects : p'.rects.drop p'.nextRect = p.rects.drop p.nextRect) : Slots { d with pendingFrame := some p' } h a b where
  ne := hs.ne
  active := hs.active
  shown := hs.shown
  scanout := hs.scanout
  same := hs.same
  last := hs.last
  idle := nofun
  pending := by
    intro p'' hp''
    cases hp''
    rw [hlease, hrects]
    exact hs.pending p hp

/-- The pending frame is shown, and the other slot becomes free. -/
theorem Slots.completed (hp : d.pendingFrame = some p) (hphase : p.phase = .scanout) : Slots { d with
      scanout := b
      frameQueue := { d.frameQueue with
        states := update (update d.frameQueue.states a .free) b (.presented p.lease.sequence)
        active := some b }
      lastPresentSequence := some p.lease.sequence
      pendingFrame := none } h b a := by
  obtain ⟨hslot, hstate, ⟨k, hk, hseq, himage⟩, hleft⟩ := hs.pending p hp
  have hsame : d.screen.Same (d.resource b) (d.frameMemory b) := by
    intro x hx y hy
    by_contra hne
    obtain ⟨r, hr, -⟩ := hleft x hx y hy hne
    rw [PendingFrame.nextRect, hphase, drop_length] at hr
    cases hr
  refine ⟨hs.ne.symm, rfl, ?_, rfl, hsame, ?_, fun _ => ⟨?_, hs.same⟩, nofun⟩
  · show update _ b _ b ≠ _
    rw [update_self]
    exact nofun
  · intro q hq
    cases hq
    exact ⟨k, hk, hseq, fun x hx y hy => (hsame x hx y hy).trans (himage x hx y hy)⟩
  · show update (update d.frameQueue.states a .free) b _ a = _
    rw [update_of_ne hs.ne, update_self]

/-- The latest frame is copied into the free slot. -/
theorem Slots.started (hidle : d.pendingFrame = none)
    (hrects : d.frameRects state = .ok rects) (hsuffices : d.copiesAll state = true ∨ d.Suffices framebuffer state)
    (hseq : state.1 = h.sequence h.count) (hlatest : h.image h.count = framebuffer) (queue : FrameQueue 2)
    (hactive : queue.active = some a) (hshown : queue.states a ≠ .free) (token : UInt32)
    (hstate : queue.states b = .submitted token state.1) :
    Slots { d with
      frameQueue := queue
      frameMemory := update d.frameMemory b (copyFrame framebuffer (d.frameMemory b) (d.copiesAll state) rects)
      pendingFrame := some ⟨⟨b, token, state.1⟩, .transfer, rects, 0⟩ } h a b where
  ne := hs.ne
  active := hactive
  shown := hshown
  scanout := hs.scanout
  same := by
    show d.screen.Same (d.resource a) (update d.frameMemory b _ a)
    rw [update_of_ne hs.ne]
    exact hs.same
  last := hs.last
  idle := nofun
  pending := by
    intro p hp
    cases hp
    have hcopy := fun x (hx : x < d.screen.stride) y (hy : y < d.screen.height) => copyFrame_spec hrects hsuffices b hx hy
    dsimp only
    rw [update_self]
    refine ⟨rfl, hstate, ⟨h.count, le_refl _, hseq, ?_⟩, fun x hx y hy hne => ?_⟩
    · rw [hlatest]
      exact fun x hx y hy => (hcopy x hx y hy).1
    · rw [(hcopy x hx y hy).1, (hs.idle hidle).2 x hx y hy] at hne
      exact (hcopy x hx y hy).2 (Ne.symm hne)

end

/-- What `present` keeps. -/
def Keeps (h : History) (framebuffer : Image) (state : PresentSnapshot) (d : GpuDevice) : Prop :=
  (∃ a b, d.Slots h a b) ∧ d.Follows framebuffer state

open Op in
lemma pollPendingFrame_keeps (hk : Keeps h framebuffer state d) (completed : Bool) :
    wp (pollPendingFrame completed) (fun _ => Keeps h framebuffer state) (fun _ => Keeps h framebuffer state) d := by
  obtain ⟨⟨a, b, hs⟩, hfollows⟩ := hk
  rw [pollPendingFrame, wp_bind, wp_get]
  rcases hp : d.pendingFrame with _ | p
  · exact ⟨⟨a, b, hs⟩, hfollows⟩
  dsimp only
  obtain ⟨hslot, -⟩ := hs.pending p hp
  -- The latest frame stays started or stays to be copied while the lease is the same.
  have hfollows' : p.lease.sequence = state.1 ∨ d.Suffices framebuffer state := by
    rcases hfollows with (⟨-, hnone⟩ | ⟨p', hp', hseq⟩) | ⟨-, hnone⟩ | hsuff
    · rw [hp] at hnone
      cases hnone
    · rw [hp] at hp'
      cases hp'
      exact .inl hseq
    · rw [hp] at hnone
      cases hnone
    · exact .inr hsuff
  have hpending : ∀ d' : GpuDevice, d'.screen = d.screen → d'.frameMemory = d.frameMemory →
      (∃ p', d'.pendingFrame = some p' ∧ p'.lease = p.lease) → d'.Follows framebuffer state := by
    intro d' hscreen hmemory ⟨p', hp', hlease⟩
    rcases hfollows' with hseq | hsuff
    · exact .inl (.inr ⟨p', hp', by rw [hlease, hseq]⟩)
    · refine .inr (.inr ?_)
      unfold Suffices
      rw [hscreen, hmemory]
      exact hsuff
  cases completed with
  | false => exact ⟨⟨a, b, hs⟩, hfollows⟩
  | true =>
    cases hphase : p.phase with
    | transfer =>
      simp only [Bool.not_true, Bool.false_eq_true, if_false, wp_modify]
      refine ⟨⟨a, b, ?_⟩, hpending _ rfl rfl ⟨_, rfl, rfl⟩⟩
      rw [hslot]
      exact hs.transferred hp hphase rfl
    | flush =>
      simp only [Bool.not_true, Bool.false_eq_true, if_false]
      split
      · refine ⟨⟨a, b, hs.advanced hp rfl ?_⟩, hpending _ rfl rfl ⟨_, rfl, rfl⟩⟩
        simp only [PendingFrame.nextRect, hphase]
      · rename_i hlast
        refine ⟨⟨a, b, hs.advanced hp rfl ?_⟩, hpending _ rfl rfl ⟨_, rfl, rfl⟩⟩
        simp only [PendingFrame.nextRect, hphase]
        rw [drop_length, drop_eq_nil_of_le (by omega)]
    | scanout =>
      simp only [Bool.not_true, Bool.false_eq_true, if_false, wp_bind, wp_modify, hs.complete hp, Except.mapError, wp_lift]
      refine ⟨fun queue hqueue => ?_, fun e h => by cases h⟩
      cases hqueue
      rw [hslot]
      refine ⟨⟨b, a, hs.completed hp hphase⟩, ?_⟩
      rcases hfollows' with hseq | hsuff
      · exact .inl (.inl ⟨congrArg some hseq, rfl⟩)
      · exact .inr (.inr hsuff)

open Op in
lemma startFrame_keeps (hk : Keeps h framebuffer state d) (hidle : d.pendingFrame = none)
    (hlast : d.lastPresentSequence ≠ some state.1) (hseq : state.1 = h.sequence h.count)
    (hlatest : h.image h.count = framebuffer) :
    wp (startFrame framebuffer state) (fun _ => Keeps h framebuffer state) (fun _ => Keeps h framebuffer state) d := by
  have hk' := hk
  obtain ⟨⟨a, b, hs⟩, hfollows⟩ := hk
  have hsuffices : d.copiesAll state = true ∨ d.Suffices framebuffer state := by
    rcases hfollows with (⟨hstarted, -⟩ | ⟨p, hp, -⟩) | ⟨hnone, -⟩ | hsuff
    · exact absurd hstarted hlast
    · rw [hidle] at hp
      cases hp
    · exact .inl (by simp [copiesAll, hnone])
    · exact .inr hsuff
  simp only [startFrame, wp_bind, wp_get, wp_lift]
  refine ⟨fun rects hrects => ?_, fun e _ => hk'⟩
  split
  · exact hk'
  simp only [hs.acquire hidle, Except.mapError, wp_lift, wp_bind, wp_modify]
  refine ⟨fun x hx => ?_, fun e h => by cases h⟩
  cases hx
  simp only [FrameQueue.submit, update_self, and_self, if_true]
  refine ⟨fun queue hqueue => ?_, fun e h => by cases h⟩
  cases hqueue
  refine ⟨⟨a, b, hs.started hidle hrects hsuffices hseq hlatest _ (by exact hs.active) ?_ _
    (by exact update_self _ _ _)⟩, .inl (.inr ⟨_, rfl, rfl⟩)⟩
  dsimp only
  rw [update_of_ne hs.ne, update_of_ne hs.ne]
  exact hs.shown

open Op in
lemma present_keeps (hk : Keeps h framebuffer state d) (hseq : state.1 = h.sequence h.count)
    (hlatest : h.image h.count = framebuffer) (completed : Bool) :
    Keeps h framebuffer state (d.present framebuffer (some state) completed).2 := by
  refine state_of_wp (m := GpuDevice.present framebuffer (some state) completed) (P := Keeps h framebuffer state) ?_
  rw [GpuDevice.present]
  refine wp_seq (pollPendingFrame_keeps hk completed) (fun _ d' hk' => ?_)
  rw [wp_bind, wp_get]
  dsimp only
  rw [wp_ite]
  refine ⟨fun hstart => ?_, fun _ => hk'⟩
  exact startFrame_keeps hk' (Option.isNone_iff_eq_none.mp hstart.2) hstart.1 hseq hlatest

end GpuDevice

/-! ## Runs -/

namespace PresentSystem

variable {s : PresentSystem} {h : History}

lemma inv_start (screen : Screen) (framebuffer : Image) (state : PresentSnapshot) (known : Bool) :
    (start screen framebuffer state known).Inv ⟨state.1, fun _ => framebuffer, 0⟩ where
  count := rfl
  bound := Nat.two_pow_pos 32
  sequence := by simp [start, History.sequence]
  latest := rfl
  slots := by
    refine ⟨0, 1, by decide, rfl, ?_, rfl, fun _ _ _ _ => rfl, ?_, fun _ => ⟨rfl, fun _ _ _ _ => rfl⟩, nofun⟩
    · exact nofun
    intro q hq
    refine ⟨0, le_refl 0, ?_, fun _ _ _ _ => rfl⟩
    cases known with
    | false => cases hq
    | true =>
      cases hq
      simp [History.sequence]
  follows := by
    cases known with
    | false => exact .inr (.inl ⟨rfl, rfl⟩)
    | true => exact .inl (.inl ⟨rfl, rfl⟩)

/-- The slots and the publications so far, after one more publication. -/
theorem slots_publish {d : GpuDevice} {a b : Fin 2} (hs : d.Slots h a b) (framebuffer : Image) :
    d.Slots (h.publish framebuffer) a b := by
  have himage : ∀ k ≤ h.count, (h.publish framebuffer).image k = h.image k :=
    fun k hk => update_of_ne (ne_of_lt (Nat.lt_succ_of_le hk)) _ _
  refine ⟨hs.ne, hs.active, hs.shown, hs.scanout, hs.same, fun q hq => ?_, hs.idle, fun p hp => ?_⟩
  · obtain ⟨k, hk, hseq, hsame⟩ := hs.last q hq
    exact ⟨k, Nat.le_succ_of_le hk, hseq, by rwa [himage k hk]⟩
  · obtain ⟨hslot, hstate, ⟨k, hk, hseq, hsame⟩, hleft⟩ := hs.pending p hp
    exact ⟨hslot, hstate, ⟨k, Nat.le_succ_of_le hk, hseq, by rwa [himage k hk]⟩, hleft⟩

lemma Inv.publish (hi : s.Inv h) {p : FramePublication} (hcover : s.Covering p) :
    (s.publish p).Inv (h.publish p.framebuffer) where
  count := congrArg (· + 1) hi.count
  bound := hcover.1
  sequence := by
    show s.state.1 + 1 = h.base + ofNat (h.count + 1)
    rw [hi.sequence, ofNat_add, ← add_assoc]
    rfl
  latest := update_self _ _ _
  slots := by
    obtain ⟨a, b, hs⟩ := hi.slots
    exact ⟨a, b, slots_publish hs p.framebuffer⟩
  follows := by
    refine .inr (.inr ?_)
    cases hfull : publishFull p.full p.rects with
    | true => exact .inl hfull
    | false =>
      have hrects : (s.publish p).state.2.2 = p.rects ++ emptyRects (maxPresentRects - p.rects.length) := by
        simp [PresentSystem.publish, publishCount, hfull]
      refine .inr ?_
      rw [hrects]
      rcases hcover.2 with hfull' | hempty | hcovers
      · rw [hfull] at hfull'
        cases hfull'
      · refine .inl ?_
        rw [all_append, hempty, emptyRects, all_replicate]
        split <;> rfl
      · refine .inr fun slot x hx y hy hne => ?_
        obtain ⟨r, hr, hcov⟩ := hcovers slot x hx y hy hne
        exact ⟨r, mem_append_left _ hr, hcov⟩

lemma Inv.present (hi : s.Inv h) (completed : Bool) : (s.present completed).Inv h := by
  have hkeeps := GpuDevice.present_keeps ⟨hi.slots, hi.follows⟩ hi.sequence hi.latest completed
  have hdevice : ∀ (device : GpuDevice) (ready : Bool), device.Keeps h s.framebuffer s.state →
      Inv { s with device := device, ready := ready } h :=
    fun device ready hk => ⟨hi.count, hi.bound, hi.sequence, hi.latest, hk.1, hk.2⟩
  unfold PresentSystem.present
  split
  · split <;> rename_i heq <;> rw [heq] at hkeeps <;> exact hdevice _ _ hkeeps
  · exact hi

lemma Reached.inv (hr : Reached Covering s) : ∃ h, s.Inv h := by
  induction hr with
  | start screen framebuffer state known => exact ⟨_, inv_start screen framebuffer state known⟩
  | publish h p hdraws hmeets ih =>
    obtain ⟨hist, hi⟩ := ih
    exact ⟨_, hi.publish hmeets⟩
  | present h completed ih =>
    obtain ⟨hist, hi⟩ := ih
    exact ⟨hist, hi.present completed⟩

lemma sequence_inj {h : History} {j k : ℕ} (hj : j < 2 ^ 32) (hk : k < 2 ^ 32) (heq : h.sequence j = h.sequence k) :
    j = k := by
  have hof : ofNat j = ofNat k := by
    have := congrArg (fun x => x - h.base) heq
    simpa [History.sequence] using this
  have hnat := congrArg toNat hof
  rwa [toNat_ofNat', toNat_ofNat', Nat.mod_eq_of_lt hj, Nat.mod_eq_of_lt hk] at hnat

/-- **What is scanned out is the framebuffer**, once the last frame shown is the latest one published, in every run in which
the rectangles of each publication cover what differs from either slot. -/
theorem scanout_is_framebuffer (hr : Reached Covering s) (hlast : s.device.lastPresentSequence = some s.state.1) :
    s.device.screen.Same (s.device.resource s.device.scanout) s.framebuffer := by
  obtain ⟨h, hi⟩ := hr.inv
  obtain ⟨a, b, hs⟩ := hi.slots
  obtain ⟨k, hk, hseq, hsame⟩ := hs.last _ hlast
  rw [hi.sequence] at hseq
  have hbound : h.count < 2 ^ 32 := hi.count ▸ hi.bound
  have hcount : h.count = k := sequence_inj hbound (lt_of_le_of_lt hk hbound) hseq
  rw [hs.scanout, ← hi.latest, hcount]
  exact hsame

/-! ## Two frames -/

lemma Reached.presents {Meets : PresentSystem → FramePublication → Prop} (hr : Reached Meets s) (polls : List Bool) :
    Reached Meets (polls.foldl PresentSystem.present s) := by
  induction polls generalizing s with
  | nil => exact hr
  | cons completed polls ih => exact ih (hr.present completed)

/-- A screen of two pixels of colour 1, just initialised. -/
def twoPixels : PresentSystem := start ⟨2, 1, 2, by decide⟩ (fun _ _ => 1) (7, true, emptyRects maxPresentRects) true

/-- The first pixel gets colour 5. -/
def firstPixel (full : Bool) : FramePublication := ⟨fun x _ => if x = 0 then 5 else 1, full, [⟨0, 0, 1, 1⟩]⟩

/-- The publication is presented until it is shown. -/
def firstFrame (full : Bool) : PresentSystem := [true, true, true, true].foldl present (twoPixels.publish (firstPixel full))

lemma draws_firstPixel (full : Bool) : twoPixels.Draws (firstPixel full) := by
  refine .inr fun x _ y hy hne => ⟨⟨0, 0, 1, 1⟩, mem_singleton_self _, ?_⟩
  have hx : x = 0 := by
    by_contra hx
    exact hne (if_neg hx)
  have hy' : y = 0 := Nat.lt_one_iff.mp hy
  subst hx hy'
  exact ⟨by decide, by decide, by decide, by decide⟩

theorem scanout_is_framebuffer_full : (firstFrame true).device.scanout = 1 ∧
      (firstFrame true).device.screen.Same ((firstFrame true).device.resource (firstFrame true).device.scanout)
        (firstFrame true).framebuffer :=
  ⟨by decide +kernel, scanout_is_framebuffer
    (((Reached.start _ _ _ _).publish _ (draws_firstPixel true) ⟨by decide, .inl rfl⟩).presents _) (by decide +kernel)⟩

/-- Only the rectangle is copied, into a slot that was never written: the second pixel is shown with colour 0. -/
theorem scanout_misses_pixel : Reached (fun _ _ => True) (firstFrame false) ∧
      (firstFrame false).device.lastPresentSequence = some (firstFrame false).state.1 ∧
      (firstFrame false).device.resource (firstFrame false).device.scanout 1 0 = 0 ∧
      (firstFrame false).framebuffer 1 0 = 1 ∧
      ¬ (firstFrame false).device.screen.Same ((firstFrame false).device.resource (firstFrame false).device.scanout)
        (firstFrame false).framebuffer := by
  have hshown : (firstFrame false).device.resource (firstFrame false).device.scanout 1 0 = 0 := by decide +kernel
  refine ⟨((Reached.start _ _ _ _).publish _ (draws_firstPixel false) trivial).presents _, by decide +kernel, hshown, rfl, ?_⟩
  intro hsame
  have hpixel := hsame 1 (by decide) 0 (by decide)
  exact absurd hpixel (by decide)

end PresentSystem

end LogOS.Graphics
