import LogOS.Memory.Loader
import Mathlib.Data.List.Pairwise
import Mathlib.Tactic.Tauto

/-!
# A loaded program is its image

What the loader has taken from the pool is always the frames of its pages, so that giving them back restores the pool; the pages are
those of the segments in order, followed by those of the stack.  The loop over the segments refuses a page that is there already.
The loop over the stack does not, and this is why the addresses are distinct only when no segment touches the stack.
-/

namespace LogOS.Memory

open Lib Op LoadSegment List Function ElfLoadPlan

/-! ## The pool -/

variable {pages : List LoadedPage} {frame : Frame} {page : LoadedPage} {segment : LoadSegment} {plan : ElfLoadPlan}

/-- The frames of some pages. -/
def framesOf (pages : List LoadedPage) : Set Frame := {frame | frame ∈ pages.map (·.frame)}

lemma mem_framesOf : frame ∈ framesOf pages ↔ frame ∈ pages.map (·.frame) := Iff.rfl

@[simp] lemma framesOf_nil : framesOf [] = ∅ := by
  ext frame
  simp [mem_framesOf]

lemma mem_framesOf_cons : frame ∈ framesOf (page :: pages) ↔ frame = page.frame ∨ frame ∈ framesOf pages := by
  simp [mem_framesOf, map_cons]

lemma mem_framesOf_concat : frame ∈ framesOf (pages ++ [page]) ↔ frame ∈ framesOf pages ∨ frame = page.frame := by
  simp [mem_framesOf, map_nil]

section Pool

variable {P : FramePool}

lemma release_pages : ∀ {pages : List LoadedPage} {pool : P.State}, (pages.map (·.frame)).Nodup →
    (∀ page ∈ pages, page.frame ∈ P.taken pool) →
      P.free (pages.foldl (fun pool page => P.release page.frame pool) pool) = P.free pool ∪ framesOf pages ∧
        P.taken (pages.foldl (fun pool page => P.release page.frame pool) pool) = P.taken pool \ framesOf pages
  | [], pool, _, _ => by simp
  | page :: pages, pool, hnodup, htaken => by
    rw [map_cons, nodup_cons] at hnodup
    obtain ⟨hfree, htaken'⟩ := P.release_taken (htaken page (by simp))
    have hothers : ∀ other ∈ pages, other.frame ∈ P.taken (P.release page.frame pool) := by
      intro other hother
      rw [htaken']
      refine ⟨htaken other (by simp [hother]), fun heq => hnodup.1 ?_⟩
      rw [← Set.mem_singleton_iff.mp heq]
      exact mem_map_of_mem hother
    obtain ⟨h, h'⟩ := release_pages hnodup.2 hothers
    rw [foldl_cons, h, h', hfree, htaken']
    constructor
    · ext frame
      simp only [Set.mem_union, Set.mem_insert_iff, mem_framesOf_cons]
      tauto
    · ext frame
      simp only [Set.mem_sdiff, mem_framesOf_cons]
      tauto

/-- What has been taken from the pool since it was `pool` are the frames of the pages. -/
structure Held (pool : P.State) (s : Loading P) : Prop where
  nodup : (s.pages.map (·.frame)).Nodup
  fresh : ∀ frame ∈ framesOf s.pages, frame ∈ P.free pool
  free : P.free s.pool = P.free pool \ framesOf s.pages
  taken : P.taken s.pool = P.taken pool ∪ framesOf s.pages

/-- The pool is as it was. -/
structure Returned (pool pool' : P.State) : Prop where
  free : P.free pool' = P.free pool
  taken : P.taken pool' = P.taken pool

lemma held_nil (pool : P.State) : Held pool ⟨pool, []⟩ :=
  ⟨nodup_nil, fun frame h => absurd h not_mem_nil, by simp, by simp⟩

variable {pool : P.State} {s : Loading P}

/-- **Reclaiming restores the pool.** -/
theorem Held.reclaim (h : Held pool s) : Returned pool s.reclaim.pool := by
  have htaken : ∀ page ∈ s.pages, page.frame ∈ P.taken s.pool := by
    intro page hpage
    rw [h.taken]
    exact .inr (mem_map_of_mem hpage)
  obtain ⟨hfree', htaken'⟩ := release_pages h.nodup htaken
  constructor
  · rw [Loading.reclaim, hfree', h.free]
    exact Set.sdiff_union_of_subset h.fresh
  · rw [Loading.reclaim, htaken', h.taken, Set.union_sdiff_right]
    exact sdiff_eq_left.mpr (Set.disjoint_right.mpr fun frame hframe => P.not_taken pool frame (h.fresh frame hframe))

lemma Held.abandon (h : Held pool s) (error : LoadError) {Q : Unit → Loading P → Prop} :
    wp (abandon error) Q (fun _ s' => Returned pool s'.pool) s := by
  exact h.reclaim

/-- The addresses and flags of the pages, in order. -/
def Loading.layout (s : Loading P) : List (ℕ × MappingFlags) := s.pages.map fun page => (page.virtualAddress, page.flags)

lemma pushPage_spec (h : Held pool s) (virtualAddress : ℕ) (flags : MappingFlags) (owner : ℕ) :
    wp (pushPage virtualAddress flags owner)
      (fun _ s' => Held pool s' ∧ s'.layout = s.layout ++ [(virtualAddress, flags)]) (fun _ s' => Returned pool s'.pool) s := by
  rw [pushPage, wp_bind, wp_get]
  split
  · exact h.abandon _
  split
  · rename_i error pool' hallocate
    obtain ⟨hfree, htaken⟩ := P.allocateFor_error hallocate
    rw [wp_bind, wp_modify]
    have hheld : Held pool { s with pool := pool' } := ⟨h.nodup, h.fresh, hfree.trans h.free, htaken.trans h.taken⟩
    exact hheld.abandon _
  · rename_i frame pool' hallocate
    obtain ⟨hmem, hfree, htaken⟩ := P.allocateFor_ok hallocate
    rw [h.free] at hmem
    refine ⟨⟨?_, ?_, ?_, ?_⟩, by simp [Loading.layout]⟩
    · rw [map_append, nodup_append]
      refine ⟨h.nodup, nodup_singleton _, fun f hf g hg heq => hmem.2 ?_⟩
      obtain rfl : g = frame := mem_singleton.mp hg
      exact heq ▸ hf
    · intro f hf
      rcases mem_framesOf_concat.mp hf with hf | rfl
      · exact h.fresh f hf
      · exact hmem.1
    · rw [hfree, h.free]
      ext f
      simp only [Set.mem_sdiff, mem_framesOf_concat]
      tauto
    · rw [htaken, h.taken]
      ext f
      simp only [Set.mem_insert_iff, Set.mem_union, mem_framesOf_concat]
      tauto

/-! ## The pages that are loaded -/

/-- The addresses and flags of the pages of a segment. -/
def LoadSegment.layout (segment : LoadSegment) : List (ℕ × MappingFlags) := segment.pages.map fun page => (page, segment.flags)

/-- The addresses and flags of the pages of the stack. -/
def stackLayout (stackPages : ℕ) : List (ℕ × MappingFlags) :=
  (List.range stackPages).map fun offset => (userStackBase + offset * 4096, dataFlags)

/-- The state of the loop over the segments: the pages are those of the layout, and no two have one address. -/
structure Laid (pool : P.State) (layout : List (ℕ × MappingFlags)) (s : Loading P) : Prop where
  held : Held pool s
  layout_eq : s.layout = layout
  distinct : (layout.map (·.1)).Nodup

lemma loadPage_spec {layout : List (ℕ × MappingFlags)} (h : Laid pool layout s)
    (flags : MappingFlags) (owner virtualAddress : ℕ) :
    wp (loadPage flags owner virtualAddress) (fun _ => Laid pool (layout ++ [(virtualAddress, flags)]))
      (fun _ s' => Returned pool s'.pool) s := by
  rw [loadPage, wp_bind, wp_get]
  split
  · exact h.held.abandon _
  rename_i hnew
  refine wp_mono (pushPage_spec h.held virtualAddress flags owner) (fun _ s' hs' => ?_) (fun _ _ h => h)
  refine ⟨hs'.1, by rw [hs'.2, h.layout_eq], ?_⟩
  rw [map_append, nodup_append]
  refine ⟨h.distinct, nodup_singleton _, fun a ha b hb heq => hnew ?_⟩
  rw [← h.layout_eq, Loading.layout, map_map] at ha
  obtain ⟨page, hpage, rfl⟩ := mem_map.mp ha
  rw [any_eq_true]
  exact ⟨page, hpage, by simpa using heq.trans (mem_singleton.mp hb)⟩

lemma loadSegment_spec {layout : List (ℕ × MappingFlags)} (h : Laid pool layout s) (owner : ℕ)
    {len : ℕ} (hsound : segment.Sound len) :
    wp (loadSegment owner segment) (fun _ => Laid pool (layout ++ segment.layout)) (fun _ s' => Returned pool s'.pool) s := by
  obtain ⟨hend, halign⟩ := alignUp_of_sound hsound
  rw [loadSegment, if_neg hend, halign]
  refine wp_forEach (fun done => Laid pool (layout ++ done.map fun page => (page, segment.flags)))
    (fun done page rest s _ hs => ?_) (by simpa using h)
  simpa using loadPage_spec hs segment.flags owner page

/-- The layout of the segments and the stack of a plan. -/
def ElfLoadPlan.layout (plan : ElfLoadPlan) (stackPages : ℕ) : List (ℕ × MappingFlags) :=
  plan.segments.flatMap LoadSegment.layout ++ stackLayout stackPages

lemma loadPages_spec {len : ℕ} (hsound : plan.Sound len) (stackPages owner : ℕ) (pool : P.State) :
    wp (loadPages plan stackPages owner)
      (fun _ s => Held pool s ∧ s.layout = plan.layout stackPages ∧ ((plan.segments.flatMap layout).map (·.1)).Nodup)
      (fun _ s => Returned pool s.pool) ⟨pool, []⟩ := by
  refine wp_seq (wp_forEach (fun done => Laid pool (done.flatMap layout))
    (fun done segment rest s hsplit hs => ?_) ⟨held_nil pool, rfl, nodup_nil⟩) fun _ s hs => ?_
  swap
  · have hstack := wp_forRange (f := loadStackPage (P := P) owner) (E := fun _ s' => Returned pool s'.pool)
      (fun count s => Held pool s ∧ s.layout = plan.layout count) stackPages 0 s
      (fun offset s _ _ hs => ?_) ⟨hs.held, by simpa [ElfLoadPlan.layout, stackLayout] using hs.layout_eq⟩
    · refine wp_mono hstack (fun _ s' hs' => ?_) (fun _ _ h => h)
      rw [zero_add] at hs'
      exact ⟨hs'.1, hs'.2, hs.distinct⟩
    · refine wp_mono (pushPage_spec hs.1 _ _ owner) (fun _ s' hs' => ⟨hs'.1, ?_⟩) (fun _ _ h => h)
      rw [hs'.2, hs.2]
      simp [ElfLoadPlan.layout, stackLayout, range_succ]
  · simpa using loadSegment_spec hs owner (hsound segment (by simp [← hsplit]))

end Pool

/-! ## The bytes of the pages -/

/-- The byte of the file for an address in the file part of the segment. -/
def LoadSegment.byteAt (segment : LoadSegment) (image : List UInt8) (address : ℕ) : Option UInt8 :=
  image[segment.fileOffset + (address - segment.virtualAddress)]?

/-- The pages are where the segments need them, each at its own address, and no page is touched by two segments. -/
structure Placed (plan : ElfLoadPlan) (loaded : LoadedImage) : Prop where
  distinct : (loaded.pages.map (·.virtualAddress)).Nodup
  aligned : ∀ page ∈ loaded.pages, page.virtualAddress % 4096 = 0
  present : ∀ segment ∈ plan.segments, ∀ address, segment.Touches address → ∃ page ∈ loaded.pages, page.virtualAddress = address
  apart : ∀ segment ∈ plan.segments, ∀ segment' ∈ plan.segments, ∀ address, segment.Touches address → segment'.Touches address →
    segment = segment'

/-- The pages hold the bytes of the segments that `done` says to be copied to them, and are zero elsewhere. -/
structure Filled (plan : ElfLoadPlan) (image : List UInt8) (loaded : LoadedImage) (done : LoadSegment → ℕ → Prop)
    (byteAt : LoadedPage → ℕ → UInt8) : Prop where
  file : ∀ page ∈ loaded.pages, ∀ offset < 4096, ∀ segment ∈ plan.segments, done segment page.virtualAddress →
    segment.InFile (page.virtualAddress + offset) →
      segment.byteAt image (page.virtualAddress + offset) = some (byteAt page offset)
  zero : ∀ page ∈ loaded.pages, ∀ offset < 4096,
    (∀ segment ∈ plan.segments, done segment page.virtualAddress → ¬ segment.InFile (page.virtualAddress + offset)) →
      byteAt page offset = 0

/-- **The pages hold the program**: the bytes of the file in the file part of each segment, and zero elsewhere. -/
structure HoldsProgram (plan : ElfLoadPlan) (image : List UInt8) (loaded : LoadedImage) (byteAt : LoadedPage → ℕ → UInt8) :
    Prop where
  file : ∀ page ∈ loaded.pages, ∀ offset < 4096, ∀ segment ∈ plan.segments, segment.InFile (page.virtualAddress + offset) →
    segment.byteAt image (page.virtualAddress + offset) = some (byteAt page offset)
  zero : ∀ page ∈ loaded.pages, ∀ offset < 4096,
    (∀ segment ∈ plan.segments, ¬ segment.InFile (page.virtualAddress + offset)) → byteAt page offset = 0

section Fill

variable {len : ℕ} {plan : ElfLoadPlan} {image : List UInt8} {loaded : LoadedImage}

variable {offset : ℕ}

lemma LoadSegment.InFile.touches (hsound : segment.Sound len) {page : ℕ} (hpage : page % 4096 = 0)
    (hoffset : offset < 4096) (h : segment.InFile (page + offset)) : segment.Touches page := by
  have := hsound.file_le
  have hend : segment.virtualEnd = segment.virtualAddress + segment.memorySize := rfl
  unfold InFile at h
  exact ⟨hpage, by omega, by omega⟩

variable {done : LoadSegment → ℕ → Prop}

/-- It matters only for the pages that the segments touch what is done. -/
theorem Filled.congr (hsound : plan.Sound len) (hplaced : Placed plan loaded) {done' : LoadSegment → ℕ → Prop}
    {byteAt : LoadedPage → ℕ → UInt8} (h : Filled plan image loaded done byteAt)
    (hdone : ∀ segment ∈ plan.segments, ∀ page, segment.Touches page → (done segment page ↔ done' segment page)) :
    Filled plan image loaded done' byteAt := by
  have htouches : ∀ page ∈ loaded.pages, ∀ offset < 4096, ∀ segment ∈ plan.segments,
      segment.InFile (page.virtualAddress + offset) → (done segment page.virtualAddress ↔ done' segment page.virtualAddress) :=
    fun page hpage offset hoffset segment hsegment hin =>
      hdone segment hsegment _ (hin.touches (hsound segment hsegment) (hplaced.aligned page hpage) hoffset)
  constructor
  · intro page hpage offset hoffset segment hsegment hd hin
    exact h.file page hpage offset hoffset segment hsegment ((htouches page hpage offset hoffset segment hsegment hin).mpr hd) hin
  · intro page hpage offset hoffset hnone
    refine h.zero page hpage offset hoffset fun segment hsegment hd hin => ?_
    exact hnone segment hsegment ((htouches page hpage offset hoffset segment hsegment hin).mp hd) hin

/-- The bytes of the pages are determined. -/
theorem HoldsProgram.unique {byteAt byteAt' : LoadedPage → ℕ → UInt8} (h : HoldsProgram plan image loaded byteAt)
    (h' : HoldsProgram plan image loaded byteAt') (hpage : page ∈ loaded.pages)
    (hoffset : offset < 4096) : byteAt page offset = byteAt' page offset := by
  by_cases hin : ∃ segment ∈ plan.segments, segment.InFile (page.virtualAddress + offset)
  · obtain ⟨segment, hsegment, hin⟩ := hin
    have heq := h.file page hpage offset hoffset segment hsegment hin
    rw [h'.file page hpage offset hoffset segment hsegment hin] at heq
    exact (Option.some.inj heq).symm
  · have hnone : ∀ segment ∈ plan.segments, ¬ segment.InFile (page.virtualAddress + offset) :=
      fun segment hsegment h => hin ⟨segment, hsegment, h⟩
    rw [h.zero page hpage offset hoffset hnone, h'.zero page hpage offset hoffset hnone]

variable {K : Type} [DecidableEq K]

lemma writeBytes_same (key : K) (start : ℕ) (bytes : List UInt8) (memory : PageMemory K) (offset : ℕ) :
    writeBytes key start bytes memory key offset =
      if start ≤ offset ∧ offset < start + bytes.length then bytes.getD (offset - start) 0 else memory key offset := by
  rw [writeBytes, update_self]

/-- What the copies ask of the source of the bytes. -/
def Fetches (plan : ElfLoadPlan) (image : List UInt8) (fetch : LoadSegment → ℕ → ℕ → Except LoadError (List UInt8)) : Prop :=
  ∀ segment ∈ plan.segments, ∀ offset n, offset + n ≤ segment.fileSize →
    fetch segment offset n = .ok (slice image (segment.fileOffset + offset) (segment.fileOffset + offset + n))

variable {key : LoadedPage → K} {fetch : LoadSegment → ℕ → ℕ → Except LoadError (List UInt8)}

lemma pageForVirtual_eq (hplaced : Placed plan loaded) (hpage : page ∈ loaded.pages) :
    loaded.pageForVirtual page.virtualAddress = some page := by
  have hsome : (loaded.pageForVirtual page.virtualAddress).isSome := by
    rw [LoadedImage.pageForVirtual, find?_isSome]
    exact ⟨page, hpage, by simp⟩
  obtain ⟨found, hfound⟩ := Option.isSome_iff_exists.mp hsome
  have hmem := mem_of_find?_eq_some hfound
  have haddress : found.virtualAddress = page.virtualAddress := by simpa using find?_some hfound
  rw [hfound, inj_on_of_nodup_map hplaced.distinct hmem hpage haddress]

variable {memory : PageMemory K}

lemma clearPage_eq_zero (key key' : K) (memory : PageMemory K) (h : ∀ offset, key' ≠ key → memory key' offset = 0) (offset : ℕ) :
    clearPage key memory key' offset = 0 := by
  by_cases heq : key' = key
  · rw [clearPage, heq, update_self]
  · rw [clearPage, update_of_ne heq]
    exact h offset heq

section

variable (hsound : plan.Sound image.length) (hplaced : Placed plan loaded)
  (hkey : ∀ page ∈ loaded.pages, ∀ page' ∈ loaded.pages, key page = key page' → page = page')
include hsound hplaced hkey

/-- Writing the bytes of a segment to one of its pages. -/
theorem filled_write (hsegment : segment ∈ plan.segments) {target : LoadedPage} (htarget : target ∈ loaded.pages)
    (h : Filled plan image loaded done fun page => memory (key page))
    {start n : ℕ} {bytes : List UInt8} (hlen : bytes.length = n)
    (hrange : ∀ offset < 4096, (start ≤ offset ∧ offset < start + n) ↔ segment.InFile (target.virtualAddress + offset))
    (hbytes : ∀ offset < 4096, start ≤ offset → offset < start + n →
      segment.byteAt image (target.virtualAddress + offset) = some (bytes.getD (offset - start) 0)) :
    Filled plan image loaded (fun s a => done s a ∨ (s = segment ∧ a = target.virtualAddress))
      fun page => writeBytes (key target) start bytes memory (key page) := by
  subst hlen
  have hother : ∀ page ∈ loaded.pages, page ≠ target →
      page.virtualAddress ≠ target.virtualAddress ∧ writeBytes (key target) start bytes memory (key page) = memory (key page) :=
    fun page hpage hne => ⟨fun heq => hne (inj_on_of_nodup_map hplaced.distinct hpage htarget heq),
      update_of_ne (fun heq => hne (hkey page hpage target htarget heq)) _ _⟩
  constructor
  · intro page hpage offset hoffset s hsegs hd hin
    by_cases heq : page = target
    · subst heq
      rw [writeBytes_same]
      split
      · rename_i hwritten
        -- the page is touched by one segment only
        obtain rfl := hplaced.apart s hsegs segment hsegment page.virtualAddress
          (hin.touches (hsound s hsegs) (hplaced.aligned page hpage) hoffset)
          (((hrange offset hoffset).mp hwritten).touches (hsound segment hsegment) (hplaced.aligned page hpage) hoffset)
        exact hbytes offset hoffset hwritten.1 hwritten.2
      · rename_i hwritten
        rcases hd with hd | ⟨rfl, -⟩
        · exact h.file page hpage offset hoffset s hsegs hd hin
        · exact absurd ((hrange offset hoffset).mpr hin) hwritten
    · obtain ⟨haddress, hmemory⟩ := hother page hpage heq
      rw [hmemory]
      rcases hd with hd | ⟨-, hd⟩
      · exact h.file page hpage offset hoffset s hsegs hd hin
      · exact absurd hd haddress
  · intro page hpage offset hoffset hnone
    have hzero := h.zero page hpage offset hoffset fun s hsegs hd => hnone s hsegs (.inl hd)
    by_cases heq : page = target
    · subst heq
      have hout := hnone segment hsegment (.inr ⟨rfl, rfl⟩)
      rw [writeBytes_same, if_neg fun hwritten => hout ((hrange offset hoffset).mp hwritten)]
      exact hzero
    · rw [(hother page hpage heq).2]
      exact hzero

/-- **The copy into one page.** -/
theorem populatePage_spec (hfetch : Fetches plan image fetch)
    (hsegment : segment ∈ plan.segments) {address : ℕ} (htouches : segment.Touches address)
    (h : Filled plan image loaded done fun page => memory (key page)) :
    wp (populatePage key fetch loaded segment address)
      (fun _ memory => Filled plan image loaded (fun s a => done s a ∨ (s = segment ∧ a = address)) fun page => memory (key page))
      (fun _ _ => False) memory := by
  obtain ⟨target, htarget, rfl⟩ := hplaced.present segment hsegment address htouches
  have hs := hsound segment hsegment
  have hfileLe := hs.file_le
  have hfileEnd := hs.file_end
  have hpos := hs.memory_pos
  have hend : segment.virtualEnd = segment.virtualAddress + segment.memorySize := rfl
  obtain ⟨-, hlow, hhigh⟩ := htouches
  -- a segment that has no byte of the file on the page leaves things as they are
  have hskip : (∀ offset < 4096, ¬ segment.InFile (target.virtualAddress + offset)) →
      Filled plan image loaded (fun s a => done s a ∨ (s = segment ∧ a = target.virtualAddress)) fun page => memory (key page) := by
    intro hnone
    constructor
    · rintro page hpage offset hoffset s hsegs (hd | ⟨rfl, heq⟩) hin
      · exact h.file page hpage offset hoffset s hsegs hd hin
      · exact absurd (heq ▸ hin) (hnone offset hoffset)
    · intro page hpage offset hoffset hzero
      exact h.zero page hpage offset hoffset fun s hsegs hd => hzero s hsegs (.inl hd)
  rw [populatePage, wp_bind, wp_orFail, pageForVirtual_eq hplaced htarget]
  refine ⟨fun page hpage => ?_, nofun⟩
  cases hpage
  dsimp only
  split
  · omega
  split
  · refine hskip fun offset hoffset hin => ?_
    unfold InFile at hin
    omega
  rename_i hstart hoffset
  rw [wp_bind, wp_lift, hfetch segment hsegment _ _ (by omega)]
  refine ⟨fun bytes hbytes => ?_, nofun⟩
  cases hbytes
  rw [wp_modify]
  generalize hn : min (min (target.virtualAddress + 4096) segment.virtualEnd - max target.virtualAddress segment.virtualAddress)
    (segment.fileSize - (max target.virtualAddress segment.virtualAddress - segment.virtualAddress)) = n
  have hlen : (slice image (segment.fileOffset + (max target.virtualAddress segment.virtualAddress - segment.virtualAddress))
      (segment.fileOffset + (max target.virtualAddress segment.virtualAddress - segment.virtualAddress) + n)).length = n := by
    rw [length_slice]
    omega
  exact filled_write hsound hplaced hkey hsegment htarget h hlen (fun offset hoffset => by unfold InFile; omega)
    fun offset _ hlow hhigh => by
      rw [getD_eq_getElem?_getD, getElem?_slice, if_pos (by omega), byteAt,
        show segment.fileOffset + (max target.virtualAddress segment.virtualAddress - segment.virtualAddress) +
          (offset - (max target.virtualAddress segment.virtualAddress - target.virtualAddress)) =
          segment.fileOffset + (target.virtualAddress + offset - segment.virtualAddress) by omega,
        getElem?_eq_getElem (by omega), Option.getD_some]

lemma populateSegment_spec (hfetch : Fetches plan image fetch) (hsegment : segment ∈ plan.segments)
    (h : Filled plan image loaded done fun page => memory (key page)) :
    wp (populateSegment key fetch loaded segment)
      (fun _ memory => Filled plan image loaded (fun s a => done s a ∨ s = segment) fun page => memory (key page))
      (fun _ _ => False) memory := by
  have hs := hsound segment hsegment
  obtain ⟨hend, halign⟩ := alignUp_of_sound hs
  rw [populateSegment, if_neg hend, halign]
  refine wp_mono (wp_forEach (fun copied memory =>
      Filled plan image loaded (fun s a => done s a ∨ (s = segment ∧ a ∈ copied)) fun page => memory (key page))
    (fun copied address rest memory hsplit hmemory => ?_) (by simpa using h)) (fun _ memory hmemory => ?_) (fun _ _ h => h)
  swap
  · refine hmemory.congr hsound hplaced fun s _ page htouches => ?_
    constructor
    · rintro (hd | ⟨heq, -⟩)
      · exact .inl hd
      · exact .inr heq
    · rintro (hd | rfl)
      · exact .inl hd
      · exact .inr ⟨rfl, (mem_pages hs.memory_pos).mpr htouches⟩
  · have htouches : segment.Touches address := by
      rw [← mem_pages hs.memory_pos, show segment.pages = _ from hsplit.symm]
      simp
    refine wp_mono (populatePage_spec hsound hplaced hkey hfetch hsegment htouches hmemory) (fun _ memory hmemory => ?_)
      (fun _ _ h => h)
    refine hmemory.congr hsound hplaced fun s _ page _ => ?_
    rw [mem_append, mem_singleton, and_or_left, or_assoc]

/-- **The three loops fill the pages with the program**, where no two pages have one key. -/
theorem populateWith_spec (hfetch : Fetches plan image fetch) (memory : PageMemory K) :
    wp (populateWith key fetch loaded plan) (fun _ memory => HoldsProgram plan image loaded fun page => memory (key page))
      (fun _ _ => False) memory := by
  refine wp_seq (wp_forEach (fun cleared memory => ∀ page ∈ cleared, ∀ offset, memory (key page) offset = 0)
    (fun cleared page rest memory _ hmemory => ?_) (fun page hpage => absurd hpage not_mem_nil)) fun _ memory hmemory => ?_
  swap
  · refine wp_mono (wp_forEach
      (fun copied memory => Filled plan image loaded (fun s _ => s ∈ copied) fun page => memory (key page))
      (fun copied segment rest memory hsplit hfilled => ?_)
      ⟨fun _ _ _ _ _ _ hd => absurd hd not_mem_nil, fun page hpage offset _ _ => hmemory page hpage offset⟩)
      (fun _ memory hfilled => ?_) (fun _ _ h => h)
    swap
    · exact ⟨fun page hpage offset hoffset s hs => hfilled.file page hpage offset hoffset s hs hs,
        fun page hpage offset hoffset hnone => hfilled.zero page hpage offset hoffset fun s hs _ => hnone s hs⟩
    refine wp_mono (populateSegment_spec hsound hplaced hkey hfetch (by simp [← hsplit]) hfilled) (fun _ memory hfilled => ?_)
      (fun _ _ h => h)
    refine hfilled.congr hsound hplaced fun s _ _ _ => ?_
    rw [mem_append, mem_singleton]
  · intro other hother offset
    refine clearPage_eq_zero (key page) (key other) memory (fun offset hne => ?_) offset
    rcases mem_append.mp hother with hother | hother
    · exact hmemory other hother offset
    · exact absurd (congrArg key (mem_singleton.mp hother)) hne

end

/-! ## The three functions -/

lemma slice_slice (l : List UInt8) {start n k : ℕ} (h : offset + k ≤ n) :
    slice (slice l start (start + n)) offset (offset + k) = slice l (start + offset) (start + offset + k) := by
  refine ext_getElem? fun i => ?_
  simp only [getElem?_slice, Nat.add_sub_cancel_left]
  by_cases hi : i < k
  · rw [if_pos hi, if_pos (by omega), if_pos hi, Nat.add_assoc]
  · rw [if_neg hi, if_neg hi]

lemma fileBytes_of_sound (h : segment.Sound image.length) :
    segment.fileBytes image = some (slice image segment.fileOffset (segment.fileOffset + segment.fileSize)) := by
  rw [fileBytes, if_pos h.file_end]

section

variable (hsound : plan.Sound image.length)
include hsound

lemma fetches_bytes : Fetches plan image (fetchBytes image) := by
  intro segment hsegment offset n hn
  rw [fetchBytes, fileBytes_of_sound (hsound segment hsegment)]
  exact congrArg Except.ok (slice_slice image hn)

lemma fetches_read {reader : ImageReader} (hreader : reader.Faithful image) : Fetches plan image (fetchRead reader) := by
  intro segment hsegment offset n hn
  have hend := (hsound segment hsegment).file_end
  rw [fetchRead, hreader.read _ _ (by omega)]
  refine if_pos ?_
  rw [length_slice]
  omega

lemma all_fileBytes : (plan.segments.all fun segment => (segment.fileBytes image).isSome) = true := by
  rw [all_eq_true]
  intro segment hsegment
  rw [fileBytes_of_sound (hsound segment hsegment)]
  rfl

/-- The course of `populate` and `populate_virtual`, which tell the pages apart in different ways. -/
theorem populateBytes_spec (hplaced : Placed plan loaded) (hentry : plan.entry = loaded.entry)
    (hkey : (loaded.pages.map key).Nodup) (memory : PageMemory K) :
    wp (do
        Op.guard (plan.entry == loaded.entry) .invalidPlan
        Op.guard (plan.segments.all fun segment => (segment.fileBytes image).isSome) .invalidPlan
        populateWith key (fetchBytes image) loaded plan)
      (fun _ memory => HoldsProgram plan image loaded fun page => memory (key page)) (fun _ _ => False) memory := by
  refine wp_guard_seq (fun h => by simp [hentry] at h) fun _ => ?_
  rw [wp_bind, wp_guard, all_fileBytes hsound]
  refine ⟨fun _ => ?_, nofun⟩
  exact populateWith_spec hsound hplaced (fun page hpage page' hpage' => inj_on_of_nodup_map hkey hpage hpage')
    (fetches_bytes hsound) memory

end

/-- Two sources of the bytes that agree on the file parts give one program. -/
theorem populateWith_congr {fetch' : LoadSegment → ℕ → ℕ → Except LoadError (List UInt8)} (hfetch : Fetches plan image fetch)
    (hfetch' : Fetches plan image fetch') : populateWith key fetch loaded plan = populateWith key fetch' loaded plan := by
  have hpage : ∀ segment ∈ plan.segments, populatePage key fetch loaded segment = populatePage key fetch' loaded segment := by
    intro segment hsegment
    funext address
    unfold populatePage
    dsimp only
    split
    · rfl
    · split
      · rfl
      · rw [hfetch segment hsegment _ _ (by omega), hfetch' segment hsegment _ _ (by omega)]
  have hloop : forEach (populateSegment key fetch loaded) plan.segments = forEach (populateSegment key fetch' loaded) plan.segments := by
    refine forEach_congr fun segment hsegment => ?_
    unfold populateSegment
    rw [hpage segment hsegment]
  rw [populateWith, populateWith, hloop]

/-- **A faithful reader fills the pages as the image does.** -/
theorem populateReader_eq (hsound : plan.Sound image.length) (himage : image.length < 2 ^ 64) {reader : ImageReader}
    (hreader : reader.Faithful image) {scratch : ℕ} (hscratch : 4096 ≤ scratch) :
    loaded.populateReader plan reader scratch = loaded.populate plan image := by
  have hall : (plan.segments.all fun segment => decide (segment.fileOffset + segment.fileSize < 2 ^ 64) &&
      decide (segment.fileOffset + segment.fileSize ≤ reader.len)) = true := by
    rw [all_eq_true]
    intro segment hsegment
    have hend := (hsound segment hsegment).file_end
    rw [hreader.len, Bool.and_eq_true, decide_eq_true_iff, decide_eq_true_iff]
    exact ⟨by omega, hend⟩
  rw [LoadedImage.populateReader, LoadedImage.populate, hall, all_fileBytes hsound, decide_eq_true hscratch, Bool.and_true,
    populateWith_congr (fetches_read hsound hreader) (fetches_bytes hsound)]

end Fill

/-! ## Loaded programs -/

/-- The pages are exactly those of the segments and of the stack, each with a frame of its own, and none can be both written and
executed. -/
structure LoadedAs (plan : ElfLoadPlan) (stackPages : ℕ) (loaded : LoadedImage) : Prop where
  frames : (loaded.pages.map (·.frame)).Nodup
  pages : ∀ address flags, (∃ page ∈ loaded.pages, page.virtualAddress = address ∧ page.flags = flags) ↔
    (∃ segment ∈ plan.segments, segment.Touches address ∧ segment.flags = flags) ∨
      ∃ offset < stackPages, address = userStackBase + offset * 4096 ∧ flags = dataFlags
  exclusive : ∀ page ∈ loaded.pages, ¬ (page.flags.writable = true ∧ page.flags.executable = true)

/-- The pages have addresses of their own, and each of the three functions fills them with the program, whatever the memory was:
the reader with the same memory as the image, and the virtual addresses with the same bytes as the frames. -/
structure Populated (plan : ElfLoadPlan) (image : List UInt8) (loaded : LoadedImage) : Prop where
  distinct : (loaded.pages.map (·.virtualAddress)).Nodup
  populate : ∀ memory, ∃ memory', loaded.populate plan image memory = (.ok (), memory') ∧
    HoldsProgram plan image loaded (fun page => memory' page.frame) ∧
    (∀ reader scratch, ImageReader.Faithful reader image → 4096 ≤ scratch →
      loaded.populateReader plan reader scratch memory = (.ok (), memory')) ∧
    ∀ virtual, ∃ virtual', loaded.populateVirtual plan image virtual = (.ok (), virtual') ∧
      ∀ page ∈ loaded.pages, ∀ offset < 4096, virtual' page.virtualAddress offset = memory' page.frame offset

/-- No segment touches a page of the stack. -/
def ElfLoadPlan.AvoidsStack (plan : ElfLoadPlan) (stackPages : ℕ) : Prop :=
  ∀ segment ∈ plan.segments, ∀ offset < stackPages, ¬ segment.Touches (userStackBase + offset * 4096)

instance (plan : ElfLoadPlan) (stackPages : ℕ) : Decidable (plan.AvoidsStack stackPages) := by
  unfold ElfLoadPlan.AvoidsStack; infer_instance

section Layout

variable {len : ℕ} {plan : ElfLoadPlan} {stackPages : ℕ}

lemma mem_layout (hsound : plan.Sound len) (address : ℕ) (flags : MappingFlags) : (address, flags) ∈ plan.layout stackPages ↔
    (∃ segment ∈ plan.segments, segment.Touches address ∧ segment.flags = flags) ∨
      ∃ offset < stackPages, address = userStackBase + offset * 4096 ∧ flags = dataFlags := by
  rw [ElfLoadPlan.layout, mem_append, mem_flatMap]
  refine or_congr ⟨?_, ?_⟩ ?_
  · rintro ⟨segment, hsegment, hmem⟩
    obtain ⟨page, hpage, heq⟩ := mem_map.mp hmem
    obtain ⟨rfl, rfl⟩ := Prod.mk.inj heq
    exact ⟨segment, hsegment, (mem_pages (hsound segment hsegment).memory_pos).mp hpage, rfl⟩
  · rintro ⟨segment, hsegment, htouches, rfl⟩
    exact ⟨segment, hsegment, mem_map.mpr ⟨address, (mem_pages (hsound segment hsegment).memory_pos).mpr htouches, rfl⟩⟩
  · simp [stackLayout, eq_comm]

lemma map_fst_segments (segments : List LoadSegment) :
    (segments.flatMap LoadSegment.layout).map (·.1) = segments.flatMap LoadSegment.pages := by
  rw [map_flatMap]
  refine flatMap_congr fun segment _ => ?_
  rw [LoadSegment.layout, map_map]
  exact map_id _

section

variable (hsound : plan.Sound len) (hnodup : ((plan.segments.flatMap LoadSegment.layout).map (·.1)).Nodup)
include hsound hnodup

/-- A page is touched by one segment at most, where the addresses of the segments are distinct. -/
theorem segments_apart {segment' : LoadSegment} (hsegment : segment ∈ plan.segments) (hsegment' : segment' ∈ plan.segments)
    {address : ℕ} (h : segment.Touches address) (h' : segment'.Touches address) : segment = segment' := by
  rw [map_fst_segments, nodup_flatMap] at hnodup
  by_contra hne
  have hsymm : Std.Symm (onFun Disjoint pages) := ⟨fun _ _ hs _ h h' => hs h' h⟩
  have hdisjoint := hnodup.2.forall hsegment hsegment' hne
  exact hdisjoint ((mem_pages (hsound segment hsegment).memory_pos).mpr h)
    ((mem_pages (hsound segment' hsegment').memory_pos).mpr h')

/-- The addresses of the whole layout are distinct where the segments avoid the stack. -/
theorem nodup_layout (havoids : plan.AvoidsStack stackPages) : ((plan.layout stackPages).map (·.1)).Nodup := by
  have hstack : (stackLayout stackPages).map (·.1) = (range stackPages).map (userStackBase + · * 4096) := by
    simp [stackLayout]
  rw [ElfLoadPlan.layout, map_append, hstack, nodup_append]
  refine ⟨hnodup, Nodup.map (fun i j h => ?_) nodup_range, fun a ha b hb heq => ?_⟩
  · omega
  · rw [map_fst_segments, mem_flatMap] at ha
    obtain ⟨segment, hsegment, ha⟩ := ha
    obtain ⟨offset, hoffset, rfl⟩ := mem_map.mp hb
    rw [mem_pages (hsound segment hsegment).memory_pos, heq] at ha
    exact havoids segment hsegment offset (mem_range.mp hoffset) ha

end

variable {loaded : LoadedImage} (hlayout : (loaded.pages.map fun page => (page.virtualAddress, page.flags)) = plan.layout stackPages)

include hlayout

lemma loadedAs_of_layout (hsound : plan.Sound len) (hframes : (loaded.pages.map (·.frame)).Nodup) :
    LoadedAs plan stackPages loaded := by
  have hpages : ∀ address flags, (∃ page ∈ loaded.pages, page.virtualAddress = address ∧ page.flags = flags) ↔
      (address, flags) ∈ plan.layout stackPages := by
    simp [← hlayout, mem_map]
  refine ⟨hframes, fun address flags => (hpages address flags).trans (mem_layout hsound address flags), fun page hpage => ?_⟩
  rcases (mem_layout hsound _ _).mp ((hpages _ _).mp ⟨page, hpage, rfl, rfl⟩) with
    ⟨segment, hsegment, -, hflags⟩ | ⟨offset, -, -, hflags⟩
  · rw [← hflags]
    exact (hsound segment hsegment).exclusive
  · rw [hflags]
    decide

lemma placed_of_layout (hsound : plan.Sound len) (hnodup : ((plan.segments.flatMap layout).map (·.1)).Nodup)
    (havoids : plan.AvoidsStack stackPages) (hframes : (loaded.pages.map (·.frame)).Nodup) : Placed plan loaded := by
  have hloaded := loadedAs_of_layout hlayout hsound hframes
  constructor
  · have hdistinct := nodup_layout hsound hnodup havoids
    rwa [← hlayout, map_map] at hdistinct
  · intro page hpage
    rcases (hloaded.pages _ _).mp ⟨page, hpage, rfl, rfl⟩ with ⟨segment, -, htouches, -⟩ | ⟨offset, -, haddress, -⟩
    · exact htouches.1
    · rw [haddress, userStackBase]
      omega
  · intro segment hsegment address htouches
    obtain ⟨page, hpage, haddress, -⟩ := (hloaded.pages address segment.flags).mpr (.inl ⟨segment, hsegment, htouches, rfl⟩)
    exact ⟨page, hpage, haddress⟩
  · exact fun segment hsegment segment' hsegment' address => segments_apart hsound hnodup hsegment hsegment'

end Layout

lemma populated_of_placed {image : List UInt8} {loaded : LoadedImage} (hsound : plan.Sound image.length)
    (himage : image.length < 2 ^ 64) (hplaced : Placed plan loaded) (hentry : plan.entry = loaded.entry)
    (hframes : (loaded.pages.map (·.frame)).Nodup) : Populated plan image loaded := by
  refine ⟨hplaced.distinct, fun memory => ?_⟩
  obtain ⟨⟨⟩, memory', hmemory, hholds⟩ :=
    exists_ok_of_wp (populateBytes_spec hsound hplaced hentry hframes memory) (fun _ _ h => h)
  refine ⟨memory', hmemory, hholds, fun reader scratch hreader hscratch => ?_, fun virtual => ?_⟩
  · rw [populateReader_eq hsound himage hreader hscratch]
    exact hmemory
  · obtain ⟨⟨⟩, virtual', hvirtual, hholds'⟩ :=
      exists_ok_of_wp (populateBytes_spec hsound hplaced hentry hplaced.distinct virtual) (fun _ _ h => h)
    exact ⟨virtual', hvirtual, fun page hpage offset hoffset => hholds'.unique hholds hpage hoffset⟩

/-- What loading comes to: a loaded image that is the program, or an error and the pool as it was. -/
def LoadsProgram {P : FramePool} (plan : ElfLoadPlan) (image : List UInt8) (stackPages : ℕ) (pool : P.State) :
    Except LoadError LoadedImage × P.State → Prop
  | (.ok loaded, _) => LoadedAs plan stackPages loaded ∧ (plan.AvoidsStack stackPages → Populated plan image loaded)
  | (.error _, pool') => P.free pool' = P.free pool ∧ P.taken pool' = P.taken pool

lemma ElfLoadPlan.parse_length {image : List UInt8} (h : parse image = .ok plan) : image.length ≤ maxImageBytes := by
  unfold parse parseReader at h
  split at h
  · cases h
  · have : (sliceImageReader image).len = image.length := rfl
    omega

/-- A pool given by the list of its free frames. -/
def listPool : FramePool where
  State := List Frame
  free frames := {frame | frame ∈ frames}
  taken frames := {frame | frame ∉ frames}
  allocateFor _ frames :=
    match frames with
    | [] => (.error .exhausted, [])
    | frame :: rest => (.ok frame, rest.filter (· != frame))
  release frame frames := frame :: frames
  not_taken _ _ h h' := h' h
  allocateFor_ok {_ frames _ _} h := by
    cases frames with
    | nil => cases h
    | cons frame rest =>
      cases h
      refine ⟨List.mem_cons_self, ?_, ?_⟩
      · ext f
        simp [and_comm]
        tauto
      · ext f
        simp
        tauto
  allocateFor_error {_ frames _ _} h := by
    cases frames with
    | nil =>
      cases h
      exact ⟨rfl, rfl⟩
    | cons frame rest => cases h
  release_taken {frames frame} h := by
    constructor
    · ext f
      simp
    · ext f
      simp
      tauto

/-- An image of 128 bytes with one segment of one page, of which one byte is in the file, and the entry at its start. -/
def smallImage (virtualAddress : ℕ) : List UInt8 :=
  elfMagic ++ [2, 1] ++ List.replicate 10 0 ++ leBytes 2 2 ++ leBytes 2 0x3e ++ leBytes 4 0 ++ leBytes 8 virtualAddress ++
    leBytes 8 64 ++ leBytes 14 0 ++ leBytes 2 56 ++ leBytes 2 1 ++ leBytes 6 0 ++
    leBytes 4 1 ++ leBytes 4 5 ++ leBytes 8 0 ++ leBytes 8 virtualAddress ++ leBytes 8 0 ++ leBytes 8 1 ++ leBytes 8 0x1000 ++
    leBytes 16 0

def smallPlan (virtualAddress : ℕ) : ElfLoadPlan :=
  ⟨virtualAddress, [⟨0, virtualAddress, 1, 0x1000, ⟨true, false, true⟩⟩], 0x1000⟩

end LogOS.Memory
