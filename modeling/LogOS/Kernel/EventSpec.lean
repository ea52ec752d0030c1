import LogOS.Kernel.Events

/-!
# What the operations on events do

A world is seen through its handles: `event?` and `set?` say what every handle leads to, next to the hardware sources
and the wakes.  Each operation gets one lemma, in these terms alone, for the case that it returns and the case that it
fails; the proofs about the registry use these lemmas and never the tables.
-/

namespace LogOS.Kernel

open Lib Abi Function SlotTable RuntimeEventRegistry Handle List

/-! ## Handles into tables -/

section Handles

variable {α : Type} {kind : HandleKind} {t : SlotTable α}

lemma filter_of_forall {o : Option α} {p : α → Bool} (h : ∀ a, o = some a → p a = true) : o.filter p = o := by
  rcases o with _ | a
  · rfl
  · rw [Option.filter_some, if_pos (h a rfl)]

variable {h : Handle kind}

/-- Only the handle of the entry that is in a slot sees the slot change. -/
theorem resolve_changed {a : α} (ha : resolve t h = some a) {t' : SlotTable α} {f : Option α → Option α}
    (hf : f none = none) (ht : ∀ i g, t'.lookup i g = if i = h.index then f (t.lookup i g) else t.lookup i g) :
    resolve t' = update (resolve t) h (f (some a)) := by
  funext k
  rw [update_apply]
  unfold resolve at *
  rw [ht]
  by_cases hi : k.index = h.index
  · rw [if_pos hi]
    by_cases hk : k = h
    · rw [if_pos hk, hk, ha]
    · rw [if_neg hk]
      rcases hl : t.lookup k.index k.generation with _ | b
      · exact hf
      · rw [hi] at hl
        exact absurd (eq_iff.mpr ⟨hi, generation_eq ha hl⟩) hk
  · rw [if_neg hi, if_neg fun hk => hi (congrArg _ hk)]

lemma resolve_update {a : α} (ha : resolve t h = some a) (f : α → α) :
    resolve (t.update h.index f) = update (resolve t) h (some (f a)) :=
  resolve_changed ha rfl fun _ _ => lookup_update ..

lemma resolve_retire {a : α} (ha : resolve t h = some a) : resolve (t.retire h.index) = update (resolve t) h none :=
  resolve_changed ha (f := fun _ => none) rfl fun _ _ => lookup_retire ..

lemma resolve_store (hf : t.FreeAt h.index h.generation) (a : α) :
    resolve (t.store h.index a) = update (resolve t) h (some a) := by
  funext k
  rw [update_apply, resolve, lookup_store hf]
  exact if_congr eq_iff.symm rfl rfl

/-- A free slot has a handle, which leads nowhere until something is stored. -/
theorem exists_fresh (kind : HandleKind) (hs : t.Sound) {i g : ℕ} (hf : t.FreeAt i g) :
    ∃ h : Handle kind, new i g = some h ∧ h.generation ≠ 0 ∧ resolve t h = none ∧
      ∀ a, resolve (t.store i a) = update (resolve t) h (some a) := by
  obtain ⟨hi, hg, -⟩ := hs.of_freeAt hf
  obtain ⟨h, hnew, rfl, rfl⟩ := exists_new kind hi hg
  exact ⟨h, hnew, by omega, lookup_of_freeAt hf _, resolve_store hf⟩

lemma resolve_append (seed : ℕ) (h : Handle kind) : resolve (t ++ [Slot.withGeneration seed]) h = resolve t h :=
  lookup_append t seed _ _

lemma generation_ne_zero_of_resolve (hs : t.Sound) {a : α} (ha : resolve t h = some a) : h.generation ≠ 0 := by
  have := (hs.of_lookup ha).2.1
  omega

lemma mem_handlesWhere (hs : t.Sound) {p : α → Bool} : h ∈ handlesWhere t p ↔ ∃ a, resolve t h = some a ∧ p a = true := by
  unfold handlesWhere
  rw [mem_filterMap]
  constructor
  · rintro ⟨⟨⟨g, v⟩, i⟩, hmem, hv⟩
    rw [mem_zipIdx_iff_getElem?] at hmem
    rcases v with _ | a
    · cases hv
    have hl := lookup_eq_some_iff.mpr hmem
    obtain ⟨hi, -, -⟩ := hs.of_lookup hl
    dsimp only at hv
    split at hv
    · rename_i hp
      obtain ⟨-, rfl, rfl⟩ := (new_eq_some_iff hi).mp hv
      exact ⟨a, hl, hp⟩
    · cases hv
  · rintro ⟨a, hl, hp⟩
    obtain ⟨hi, hg, -⟩ := hs.of_lookup hl
    refine ⟨(⟨h.generation, some a⟩, h.index), ?_, ?_⟩
    · exact mem_zipIdx_iff_getElem?.mpr (lookup_eq_some_iff.mp hl)
    · dsimp only
      rw [if_pos hp]
      exact (new_eq_some_iff hi).mpr ⟨by omega, rfl, rfl⟩

/-- A table that has room in slot `i` and shows what `t` showed. -/
structure Roomy (t t' : SlotTable α) (i : ℕ) : Prop where
  free : t'.FreeAt i (generationAt t' i)
  lookup : ∀ j g, t'.lookup j g = t.lookup j g
  sound : t.Sound → t'.Sound

lemma generationAt_of_freeAt {i g : ℕ} (h : t.FreeAt i g) : generationAt t i = g := by
  rw [generationAt, show t[i]? = _ from h]
  rfl

lemma roomy_of_firstFree {i : ℕ} (h : t.firstFree = some i) : Roomy t t i := by
  obtain ⟨g, hg⟩ := freeAt_of_firstFree h
  refine ⟨?_, fun _ _ => rfl, id⟩
  rw [generationAt_of_freeAt hg]
  exact hg

lemma roomy_append {seed : ℕ} (hseed : seed < 2 ^ 32) (hlen : t.length < 2 ^ 32) :
    Roomy t (t ++ [Slot.withGeneration seed]) t.length := by
  have hf := freeAt_append t seed
  refine ⟨?_, lookup_append t seed, fun hs => hs.append hseed hlen⟩
  rw [generationAt_of_freeAt hf]
  exact hf

end Handles

/-! ## Worlds seen through handles -/

variable {w w' w₁ w₂ : EventWorld} {e : EventHandle} {r : EventRecord}

namespace EventWorld

def event? (w : EventWorld) (event : EventHandle) : Option EventRecord := resolve w.registry.events event

def set? (w : EventWorld) (set : EventSetHandle) : Option EventSetRecord := resolve w.registry.sets set

structure Sound (w : EventWorld) : Prop where
  events : w.registry.events.Sound
  sets : w.registry.sets.Sound
  seed : w.registry.generationSeed < 2 ^ 32

/-- `w'` shows what `w` showed. -/
structure Alike (w w' : EventWorld) : Prop where
  event? : w'.event? = w.event?
  set? : w'.set? = w.set?
  hardware : w'.hardware = w.hardware
  wakes : w'.wakes = w.wakes
  sound : w.Sound → w'.Sound

lemma Alike.refl (w : EventWorld) : w.Alike w := ⟨rfl, rfl, rfl, rfl, id⟩

/-- Every event of `w'` is one of `w`, with its owner. -/
def Inherits (w w' : EventWorld) : Prop := ∀ e r', w'.event? e = some r' → ∃ r, w.event? e = some r ∧ r'.owner = r.owner

lemma Inherits.of_eq (h : w'.event? = w.event?) : w.Inherits w' := fun e r hr =>
  ⟨r, by rw [← h, hr], rfl⟩

lemma Inherits.refl (w : EventWorld) : w.Inherits w := .of_eq rfl

lemma Inherits.trans (h : w.Inherits w₁) (h' : w₁.Inherits w₂) : w.Inherits w₂ := by
  intro e r2 hr2
  obtain ⟨r1, hr1, ho1⟩ := h' e r2 hr2
  obtain ⟨r, hr, ho⟩ := h e r1 hr1
  exact ⟨r, hr, ho1.trans ho⟩

/-- An event that lives on keeps its owner. -/
def SameOwners (w w' : EventWorld) : Prop :=
  ∀ e r r', w.event? e = some r → w'.event? e = some r' → r'.owner = r.owner

lemma Inherits.sameOwners (h : w.Inherits w') : w.SameOwners w' := by
  intro e r r' hr hr'
  obtain ⟨r0, hr0, ho⟩ := h e r' hr'
  rw [hr] at hr0
  cases hr0
  exact ho

lemma SameOwners.of_keeps (h : ∀ e r, w.event? e = some r → w'.event? e = some r) : w.SameOwners w' := by
  intro e r r' hr hr'
  rw [h e r hr] at hr'
  cases hr'
  rfl

/-- One event changed under its owner. -/
theorem Inherits.of_update {r' : EventRecord} (hr : w.event? e = some r)
    (h : w'.event? = update w.event? e (some r')) (ho : r'.owner = r.owner) : w.Inherits w' := by
  intro k rk hk
  rcases eq_some_of_update h hk with ⟨rfl, rfl⟩ | ⟨-, hk⟩
  · exact ⟨r, hr, ho⟩
  · exact ⟨rk, hk, rfl⟩

lemma sound_start (generation : UInt32) : (start generation).Sound := by
  refine ⟨Sound.nil, Sound.nil, ?_⟩
  exact Nat.max_lt.mpr ⟨generation.toNat_lt, by decide⟩

variable {s : EventSetHandle}

lemma event_eq_ok_iff : w.registry.event e = .ok r ↔ w.event? e = some r := by
  unfold event event?
  rcases resolve w.registry.events e with _ | r' <;> simp

lemma set_eq_ok_iff {r : EventSetRecord} : w.registry.set s = .ok r ↔ w.set? s = some r := by
  unfold RuntimeEventRegistry.set set?
  rcases resolve w.registry.sets s with _ | r' <;> simp

lemma mem_waiters (hs : w.Sound) : s ∈ w.registry.waiters e ↔ ∃ r, w.set? s = some r ∧ r.waiting = true ∧ e ∈ r.members := by
  unfold waiters set?
  rw [mem_handlesWhere hs.sets]
  simp

lemma mem_ownedEvents (hs : w.Sound) {o : ServiceHandle} :
    e ∈ w.registry.ownedEvents o ↔ ∃ r, w.event? e = some r ∧ r.owner = o := by
  unfold ownedEvents event?
  rw [mem_handlesWhere hs.events]
  simp

lemma mem_ownedSets (hs : w.Sound) {o : ServiceHandle} :
    s ∈ w.registry.ownedSets o ↔ ∃ r, w.set? s = some r ∧ r.owner = o := by
  unfold ownedSets set?
  rw [mem_handlesWhere hs.sets]
  simp

/-! ## Hardware sources -/

variable {f : HardwareBinding → HardwareBinding}

lemma hardware_setHardware (w : EventWorld) (src other : HardwareEventSource) (b : HardwareBinding) :
    (w.setHardware src b).hardware other = if other = src then b else w.hardware other := rfl

/-- A source after `set` joined the event it is bound to. -/
def bound (e : EventHandle) (s : EventSetHandle) (b : HardwareBinding) : HardwareBinding :=
  if b.eventRaw = e.raw then { b with setRaw := s.raw } else b

/-- A source after `set` left the event it is bound to. -/
def unbound (e : EventHandle) (s : EventSetHandle) (b : HardwareBinding) : HardwareBinding :=
  if b.eventRaw = e.raw ∧ b.setRaw = s.raw then { b with setRaw := 0 } else b

def consumed (e : EventHandle) (b : HardwareBinding) : HardwareBinding :=
  if b.eventRaw = e.raw then { b with pending := false } else b

def cleared (e : EventHandle) (b : HardwareBinding) : HardwareBinding :=
  if b.eventRaw = e.raw then .unbound else b

/-- Only the hardware sources differ, each as `f` says. -/
structure Rewired (f : HardwareBinding → HardwareBinding) (w w' : EventWorld) : Prop where
  registry : w'.registry = w.registry
  wakes : w'.wakes = w.wakes
  heap : w'.heap = w.heap
  hardware : ∀ src, w'.hardware src = f (w.hardware src)

/-- Only source `src` differs, as `f` says. -/
structure RewiredAt (src : HardwareEventSource) (f : HardwareBinding → HardwareBinding) (w w' : EventWorld) : Prop where
  registry : w'.registry = w.registry
  wakes : w'.wakes = w.wakes
  heap : w'.heap = w.heap
  hardware : ∀ other, w'.hardware other = if other = src then f (w.hardware src) else w.hardware other

lemma rewired_of_each {w3 : EventWorld}
    (h1 : RewiredAt .network f w w₁) (h2 : RewiredAt .keyboard f w₁ w₂) (h3 : RewiredAt .pointer f w₂ w3) :
    Rewired f w w3 := by
  refine ⟨?_, ?_, ?_, fun src => ?_⟩
  · rw [h3.registry, h2.registry, h1.registry]
  · rw [h3.wakes, h2.wakes, h1.wakes]
  · rw [h3.heap, h2.heap, h1.heap]
  · cases src <;> simp [h3.hardware, h2.hardware, h1.hardware]

lemma rewiredAt_ite {c : HardwareBinding → Prop} [DecidablePred c] {b : HardwareBinding → HardwareBinding}
    (w : EventWorld) (src : HardwareEventSource) :
    RewiredAt src (fun x => if c x then b x else x) w
      (if c (w.hardware src) then w.setHardware src (b (w.hardware src)) else w) := by
  split
  · rename_i hc
    refine ⟨rfl, rfl, rfl, fun other => ?_⟩
    rw [hardware_setHardware, if_pos hc]
  refine ⟨rfl, rfl, rfl, fun other => ?_⟩
  split
  · rename_i ho
    rw [ho]
  · rfl

variable (w)

lemma rewired_bindAll (e : EventHandle) (s : EventSetHandle) : Rewired (bound e s) w (w.bindAllHardwareWaitSets e s) :=
  rewired_of_each (rewiredAt_ite _ _) (rewiredAt_ite _ _) (rewiredAt_ite _ _)

lemma rewired_unbindAll (e : EventHandle) (s : EventSetHandle) : Rewired (unbound e s) w (w.unbindAllHardwareWaitSets e s) :=
  rewired_of_each (rewiredAt_ite _ _) (rewiredAt_ite _ _) (rewiredAt_ite _ _)

lemma rewired_consume (e : EventHandle) : Rewired (consumed e) w (w.consumeHardwareEvent e) :=
  rewired_of_each (rewiredAt_ite _ _) (rewiredAt_ite _ _) (rewiredAt_ite _ _)

lemma rewired_clear (e : EventHandle) :
    Rewired (cleared e) w (w |> clearBoundSource e .network |> clearBoundSource e .keyboard
      |> clearBoundSource e .pointer) :=
  rewired_of_each (rewiredAt_ite _ _) (rewiredAt_ite _ _) (rewiredAt_ite _ _)

variable {w}

lemma Rewired.event? (h : Rewired f w w') : w'.event? = w.event? := by
  unfold EventWorld.event?
  rw [h.registry]

lemma Rewired.set? (h : Rewired f w w') : w'.set? = w.set? := by
  unfold EventWorld.set?
  rw [h.registry]

lemma Rewired.sound (h : Rewired f w w') (hs : w.Sound) : w'.Sound := by
  refine ⟨?_, ?_, ?_⟩ <;> rw [h.registry]
  exacts [hs.events, hs.sets, hs.seed]

lemma Rewired.trans {g : HardwareBinding → HardwareBinding} (h : Rewired f w w₁)
    (h' : Rewired g w₁ w₂) : Rewired (g ∘ f) w w₂ :=
  ⟨h'.registry.trans h.registry, h'.wakes.trans h.wakes, h'.heap.trans h.heap, fun src => by
    rw [h'.hardware, h.hardware, comp_apply]⟩

/-- A loop of changes to the sources changes each source by the same loop. -/
theorem rewired_foldl {β : Type} {step : EventWorld → β → EventWorld} {g : β → HardwareBinding → HardwareBinding}
    (hstep : ∀ w b, Rewired (g b) w (step w b)) :
    ∀ (l : List β) (w : EventWorld), Rewired (fun x => l.foldl (fun x b => g b x) x) w (l.foldl step w)
  | [], w => ⟨rfl, rfl, rfl, fun _ => rfl⟩
  | b :: l, w => (hstep w b).trans (rewired_foldl hstep l (step w b))

lemma cleared_unbound (e : EventHandle) (s : EventSetHandle) (b : HardwareBinding) :
    cleared e (unbound e s b) = cleared e b := by
  unfold unbound
  split
  · rename_i h
    rw [cleared, cleared, if_pos h.1, if_pos h.1]
  · rfl

lemma cleared_foldl_unbound (e : EventHandle) :
    ∀ (l : List EventSetHandle) (b : HardwareBinding), cleared e (l.foldl (fun x s => unbound e s x) b) = cleared e b
  | [], _ => rfl
  | s :: l, b => by
    rw [foldl_cons, cleared_foldl_unbound e l, cleared_unbound]

/-- A set that leaves several events is forgotten by the sources, which otherwise stay as they were. -/
theorem foldl_unbound (s : EventSetHandle) : ∀ (l : List EventHandle) (b : HardwareBinding),
      (l.foldl (fun x e => unbound e s x) b).eventRaw = b.eventRaw ∧
      (l.foldl (fun x e => unbound e s x) b).pending = b.pending ∧
      (b.setRaw ≠ s.raw → (l.foldl (fun x e => unbound e s x) b).setRaw = b.setRaw)
  | [], _ => ⟨rfl, rfl, fun _ => rfl⟩
  | e :: l, b => by
    obtain ⟨h1, h2, h3⟩ := foldl_unbound s l (unbound e s b)
    rw [foldl_cons, h1, h2]
    by_cases h : b.eventRaw = e.raw ∧ b.setRaw = s.raw
    · rw [unbound, if_pos h]
      exact ⟨rfl, rfl, fun hne => absurd h.2 hne⟩
    · rw [unbound, if_neg h] at h3 ⊢
      exact ⟨rfl, rfl, h3⟩

lemma hardwareEventIsPending_iff :
    w.hardwareEventIsPending e = true ↔ ∃ src, (w.hardware src).eventRaw = e.raw ∧ (w.hardware src).pending = true := by
  unfold hardwareEventIsPending
  rw [any_eq_true]
  constructor
  · rintro ⟨src, -, h⟩
    exact ⟨src, by simpa using h⟩
  · rintro ⟨src, h⟩
    exact ⟨src, by cases src <;> simp, by simpa using h⟩

/-! ## Events and sets changed in place -/

/-- An event that is signaled, or whose device has fired. -/
def Ready (w : EventWorld) (e : EventHandle) : Prop :=
  (∃ r, w.event? e = some r ∧ r.signaled = true) ∨ w.hardwareEventIsPending e = true

lemma event?_setSignaled (h : w.event? e = some r) (b : Bool) :
    (w.setSignaled e b).event? = update w.event? e (some { r with signaled := b }) :=
  resolve_update h _

lemma sound_setSignaled (hs : w.Sound) (e : EventHandle) (b : Bool) : (w.setSignaled e b).Sound :=
  ⟨hs.events.update _ _, hs.sets, hs.seed⟩

lemma set?_updateSet {r : EventSetRecord} (h : w.set? s = some r)
    (f : EventSetRecord → EventSetRecord) : (w.updateSet s f).set? = update w.set? s (some (f r)) :=
  resolve_update h f

lemma sound_updateSet (hs : w.Sound) (s : EventSetHandle) (f : EventSetRecord → EventSetRecord) : (w.updateSet s f).Sound :=
  ⟨hs.events, hs.sets.update _ _, hs.seed⟩

/-- **The end of an event.**  Its handle leads nowhere, every set that had it as a member is invalidated, and the
sources bound to it are free. -/
theorem dropEvent_spec (hs : w.Sound) (h : w.event? e = some r) :
    (w.dropEvent e).Sound ∧ (w.dropEvent e).event? = update w.event? e none ∧
      (w.dropEvent e).set? = (fun s => (w.set? s).map (EventSetRecord.without e)) ∧
      (∀ src, (w.dropEvent e).hardware src = cleared e (w.hardware src)) ∧ (w.dropEvent e).wakes = w.wakes ∧
      (w.dropEvent e).heap = w.heap := by
  let without : ℕ → ℕ → EventSetRecord → EventSetRecord := fun index generation record =>
    if (new index generation : Option EventSetHandle).isSome then record.without e else record
  let invalidated := (w.setEvents (w.registry.events.retire e.index)).setSets (w.registry.sets.updateAll without)
  have hfold := rewired_foldl (fun w s => rewired_unbindAll w e s) (w.registry.holders e) invalidated
  have hall := hfold.trans (rewired_clear _ e)
  have hsound : invalidated.Sound := ⟨hs.events.retire _, hs.sets.updateAll _, hs.seed⟩
  refine ⟨hall.sound hsound, hall.event?.trans (resolve_retire h), hall.set?.trans ?_, fun src => ?_, hall.wakes, hall.heap⟩
  · funext k
    show (w.registry.sets.updateAll without).lookup k.index k.generation = (w.set? k).map _
    rw [lookup_updateAll]
    show (w.set? k).map _ = _
    rcases hk : w.set? k with _ | rk
    · rfl
    · obtain ⟨hi, hg, -⟩ := hs.sets.of_lookup hk
      obtain ⟨k', hk', -, -⟩ := exists_new .eventSet hi hg
      simp [without, hk']
  · exact (hall.hardware src).trans (cleared_foldl_unbound e _ _)

lemma firstReady_some :
    ∀ {l : List EventHandle}, w.firstReady l = .ok (some e) → e ∈ l ∧ ∃ r, w.event? e = some r
  | [], h => by cases h
  | k :: l, h => by
    obtain ⟨r, hr, h⟩ := bind_eq_ok.mp h
    split at h
    · cases h
      exact ⟨by simp, r, event_eq_ok_iff.mp hr⟩
    · obtain ⟨hmem, hex⟩ := firstReady_some h
      exact ⟨by simp [hmem], hex⟩

lemma firstReady_none : ∀ {l : List EventHandle}, w.firstReady l = .ok none → ∀ e ∈ l, ¬ w.Ready e
  | [], _ => by simp
  | k :: l, h => by
    obtain ⟨r, hr, h⟩ := bind_eq_ok.mp h
    split at h
    · cases h
    rename_i hnot
    rw [Bool.or_eq_true, not_or] at hnot
    intro e he
    rcases mem_cons.mp he with rfl | he
    · rintro (⟨r', hr', hs'⟩ | hp)
      · rw [event_eq_ok_iff.mp hr] at hr'
        cases hr'
        exact hnot.1 hs'
      · exact hnot.2 hp
    · exact firstReady_none h e he

end EventWorld

/-! ## Operations -/

open EventWorld Op

lemma wp_tryReserve {ε : Type} (n : ℕ) (e : ε) (w : EventWorld) :
    wp (tryReserve n e) (fun _ w' => n < 2 ^ 32 ∧ w.Alike w' ∧ w'.registry = w.registry) (fun _ w' => w.Alike w') w := by
  unfold tryReserve
  simp only [wp_bind, wp_get, wp_modify, wp_guard, Bool.and_eq_true, decide_eq_true_eq]
  exact ⟨fun h => ⟨h.2, ⟨rfl, rfl, rfl, rfl, fun hs => ⟨hs.events, hs.sets, hs.seed⟩⟩, trivial⟩,
    fun _ => ⟨rfl, rfl, rfl, rfl, fun hs => ⟨hs.events, hs.sets, hs.seed⟩⟩⟩

/-- An allocator that refuses no reservation to come. -/
def Generous (heap : List Bool) : Prop := ∀ answer ∈ heap, answer = true

lemma wp_tryReserve_generous {ε : Type} {n : ℕ} (hn : n < 2 ^ 32) (e : ε) (hg : Generous w.heap) :
    wp (tryReserve n e) (fun _ w' => w.Alike w' ∧ Generous w'.heap) (fun _ _ => False) w := by
  have hhead : w.heap.headD true = true := by
    rcases hheap : w.heap with _ | ⟨answer, rest⟩
    · rfl
    · exact hg answer (by rw [hheap]; exact mem_cons_self)
  unfold tryReserve
  simp only [wp_bind, wp_get, wp_guard, hhead, decide_eq_true hn]
  refine ⟨fun _ => ⟨⟨rfl, rfl, rfl, rfl, fun hs => ⟨hs.events, hs.sets, hs.seed⟩⟩, ?_⟩, fun h => by cases h⟩
  exact fun answer ha => hg answer (mem_of_mem_tail ha)

lemma wp_allocateEventSlot (hs : w.Sound) :
    wp allocateEventSlot (fun i w' => w.Alike w' ∧ Roomy w.registry.events w'.registry.events i)
      (fun _ w' => w.Alike w') w := by
  unfold allocateEventSlot
  rw [wp_bind, wp_get]
  rcases hf : w.registry.events.firstFree with _ | i
  · refine wp_seq (wp_tryReserve _ _ w) ?_
    rintro - w' ⟨hlen, hal, hreg⟩
    have hroom := roomy_append hs.seed hlen
    simp only [wp_bind, wp_modify, hreg]
    exact ⟨⟨funext (resolve_append _), hal.set?, hal.hardware, hal.wakes,
      fun _ => ⟨hroom.sound hs.events, (hal.sound hs).sets, (hal.sound hs).seed⟩⟩, hroom⟩
  · exact ⟨Alike.refl w, roomy_of_firstFree hf⟩

lemma wp_allocateSetSlot (hs : w.Sound) :
    wp allocateSetSlot (fun i w' => w.Alike w' ∧ Roomy w.registry.sets w'.registry.sets i) (fun _ w' => w.Alike w') w := by
  unfold allocateSetSlot
  rw [wp_bind, wp_get]
  rcases hf : w.registry.sets.firstFree with _ | i
  · refine wp_seq (wp_tryReserve _ _ w) ?_
    rintro - w' ⟨hlen, hal, hreg⟩
    have hroom := roomy_append hs.seed hlen
    simp only [wp_bind, wp_modify, hreg]
    exact ⟨⟨hal.event?, funext (resolve_append _), hal.hardware, hal.wakes,
      fun _ => ⟨(hal.sound hs).events, hroom.sound hs.sets, (hal.sound hs).seed⟩⟩, hroom⟩
  · exact ⟨Alike.refl w, roomy_of_firstFree hf⟩

/-- `w'` is `w` with a new event `e`. -/
structure EventMade (w : EventWorld) (e : EventHandle) (r : EventRecord) (w' : EventWorld) : Prop where
  sound : w'.Sound
  fresh : w.event? e = none
  valid : e.generation ≠ 0
  event? : w'.event? = Function.update w.event? e (some r)
  set? : w'.set? = w.set?
  hardware : w'.hardware = w.hardware
  wakes : w'.wakes = w.wakes

lemma EventMade.keeps (h : EventMade w e r w') (k : EventHandle)
    (rk : EventRecord) (hk : w.event? k = some rk) : w'.event? k = some rk := by
  rw [h.event?, update_of_ne, hk]
  rintro rfl
  rw [h.fresh] at hk
  cases hk

lemma wp_createEventWithFlags (hs : w.Sound) (owner : ServiceHandle) (flags : ℕ) :
    wp (createEventWithFlags owner flags) (fun e w' => owner.isValid = true ∧ EventMade w e ⟨owner, flags, false⟩ w')
      (fun _ w' => w.Alike w') w := by
  refine wp_guard_seq (fun _ => Alike.refl w) fun hvalid => ?_
  refine wp_seq (wp_allocateEventSlot hs) ?_
  rintro i w₁ ⟨hal, hroom⟩
  have hs1 := hal.sound hs
  obtain ⟨e, hnew, hgen, hfresh, hstore⟩ := exists_fresh .event hs1.events hroom.free
  rw [wp_bind, wp_get, hnew]
  simp only [orFail]
  refine ⟨hvalid, ⟨hs1.events.store _ _, hs1.sets, hs1.seed⟩, ?_, hgen, ?_, hal.set?, hal.hardware, hal.wakes⟩
  · rw [← hal.event?]
    exact hfresh
  · rw [← hal.event?]
    exact hstore _

/-- `w'` is `w` with a new, empty set `s`. -/
structure SetMade (w : EventWorld) (s : EventSetHandle) (r : EventSetRecord) (w' : EventWorld) : Prop where
  sound : w'.Sound
  fresh : w.set? s = none
  valid : s.generation ≠ 0
  event? : w'.event? = w.event?
  set? : w'.set? = Function.update w.set? s (some r)
  hardware : w'.hardware = w.hardware
  wakes : w'.wakes = w.wakes

lemma wp_createSet (hs : w.Sound) (owner : ServiceHandle) :
    wp (createSet owner) (fun s w' => SetMade w s ⟨owner, [], false, false⟩ w') (fun _ w' => w.Alike w') w := by
  refine wp_guard_seq (fun _ => Alike.refl w) fun _ => ?_
  refine wp_seq (wp_allocateSetSlot hs) ?_
  rintro i w₁ ⟨hal, hroom⟩
  have hs1 := hal.sound hs
  obtain ⟨s, hnew, hgen, hfresh, hstore⟩ := exists_fresh .eventSet hs1.sets hroom.free
  rw [wp_bind, wp_get, hnew]
  simp only [orFail]
  refine ⟨⟨hs1.events, hs1.sets.store _ _, hs1.seed⟩, ?_, hgen, hal.event?, ?_, hal.hardware, hal.wakes⟩
  · rw [← hal.set?]
    exact hfresh
  · rw [← hal.set?]
    exact hstore _

lemma wp_createHardwareEvent (hs : w.Sound) (owner : ServiceHandle) (source : HardwareEventSource) :
    wp (createHardwareEvent owner source)
      (fun e w' => ∃ w₁ flags, EventMade w e ⟨owner, flags, false⟩ w₁ ∧ w' = w₁.bindHardwareEvent source e)
      (fun _ w' => w.Alike w') w := by
  refine wp_seq (wp_createEventWithFlags hs owner _) ?_
  rintro e w₁ ⟨-, hmade⟩
  simp only [wp_bind]
  exact ⟨w₁, _, hmade, rfl⟩

lemma wp_openSet (owner : ServiceHandle) (s : EventSetHandle) (w : EventWorld) : wp (openSet owner s)
      (fun r w' => w' = w ∧ w.set? s = some r ∧ r.owner = owner ∧ r.invalidated = false ∧ r.waiting = false)
      (fun _ w' => w' = w) w := by
  unfold openSet
  simp only [wp_bind, wp_get, wp_lift, wp_guard, wp_pure]
  refine ⟨fun r hr => ⟨fun h1 => ⟨fun h2 => ⟨fun h3 => ⟨trivial, set_eq_ok_iff.mp hr, ?_⟩, fun _ => trivial⟩,
    fun _ => trivial⟩, fun _ => trivial⟩, fun _ _ => trivial⟩
  exact ⟨by simpa using h1, by simpa using h2, by simpa using h3⟩

lemma wp_add (hs : w.Sound) (owner : ServiceHandle) (s : EventSetHandle) (e : EventHandle) :
    wp (add owner s e)
      (fun _ w' => w'.Sound ∧ ∃ r re, w.event? e = some re ∧ re.owner = owner ∧ w.set? s = some r ∧ r.owner = owner ∧
        r.waiting = false ∧ e ∉ r.members ∧ w'.event? = w.event? ∧
        w'.set? = update w.set? s (some { r with members := r.members ++ [e] }) ∧
        (∀ src, w'.hardware src = bound e s (w.hardware src)) ∧ w'.wakes = w.wakes)
      (fun _ w' => w.Alike w') w := by
  unfold add
  simp only [wp_bind, wp_lift, wp_guard]
  refine ⟨fun re hre => ⟨fun hown => ?_, fun _ => Alike.refl w⟩, fun _ _ => Alike.refl w⟩
  refine wp_mono (wp_openSet owner s w) ?_ fun _ _ h => h ▸ Alike.refl w
  rintro r w0 ⟨rfl, hr, hro, -, hwait⟩
  refine ⟨fun hdup => ?_, fun _ => Alike.refl w0⟩
  refine wp_mono (wp_tryReserve _ _ w0) ?_ fun _ _ h => h
  rintro - w₁ ⟨-, hal, -⟩
  have hr1 : w₁.set? s = some r := by rw [hal.set?, hr]
  have hre' := rewired_bindAll (w₁.updateSet s fun record => { record with members := record.members ++ [e] }) e s
  refine ⟨hre'.sound (sound_updateSet (hal.sound hs) _ _), r, re, event_eq_ok_iff.mp hre, by simpa using hown, hr, hro,
    hwait, by simpa using hdup, hre'.event?.trans hal.event?, ?_, fun src => ?_, hre'.wakes.trans hal.wakes⟩
  · rw [hre'.set?, set?_updateSet hr1, hal.set?]
  · rw [hre'.hardware, ← hal.hardware]
    rfl

lemma wp_remove (hs : w.Sound) (owner : ServiceHandle) (s : EventSetHandle) (e : EventHandle) :
    wp (remove owner s e)
      (fun _ w' => w'.Sound ∧ ∃ r, w.set? s = some r ∧ r.owner = owner ∧ r.waiting = false ∧ w'.event? = w.event? ∧
        w'.set? = update w.set? s (some { r with members := r.members.erase e }) ∧
        (∀ src, w'.hardware src = unbound e s (w.hardware src)) ∧ w'.wakes = w.wakes)
      (fun _ w' => w.Alike w') w := by
  refine wp_step (wp_openSet owner s w) ?_ fun _ _ h => h ▸ Alike.refl w
  rintro r w0 ⟨rfl, hr, hro, -, hwait⟩
  simp only [wp_bind, wp_guard]
  refine ⟨fun _ => ?_, fun _ => Alike.refl w0⟩
  have hre := rewired_unbindAll (w0.updateSet s fun record => { record with members := record.members.erase e }) e s
  refine ⟨hre.sound (sound_updateSet hs _ _), r, hr, hro, hwait, hre.event?, ?_, fun src => hre.hardware src, hre.wakes⟩
  rw [hre.set?, set?_updateSet hr]

/-- `w'` is `w` after `e` was signaled and its waiters woken. -/
structure Signaled (w : EventWorld) (e : EventHandle) (w' : EventWorld) : Prop where
  sound : w'.Sound
  event? : ∃ r, w.event? e = some r ∧ w'.event? = Function.update w.event? e (some { r with signaled := true })
  set? : w'.set? = w.set?
  hardware : w'.hardware = w.hardware
  wakes : w'.wakes = w.wakes ++ w.registry.waiters e

lemma Signaled.inherits (h : Signaled w e w') : w.Inherits w' := by
  obtain ⟨r, hr, hupd⟩ := h.event?
  exact .of_update hr hupd rfl

lemma signaled_of_event? (hs : w.Sound) (h : w.event? e = some r) : Signaled w e ((w.setSignaled e true).wakeWaiters e) where
  sound := by
    have := sound_setSignaled hs e true
    exact ⟨this.events, this.sets, this.seed⟩
  event? := ⟨r, h, event?_setSignaled h true⟩
  set? := rfl
  hardware := rfl
  wakes := rfl

lemma wp_signalIrq (hs : w.Sound) (e : EventHandle) :
    wp (signalIrq e) (fun _ w' => Signaled w e w') (fun _ w' => w' = w) w := by
  unfold signalIrq
  simp only [wp_bind, wp_get, wp_lift]
  exact ⟨fun r hr => signaled_of_event? hs (event_eq_ok_iff.mp hr), fun _ _ => trivial⟩

lemma wp_signal (hs : w.Sound) (owner : ServiceHandle) (e : EventHandle) :
    wp (signal owner e) (fun _ w' => Signaled w e w') (fun _ w' => w' = w) w := by
  unfold signal
  simp only [wp_bind, wp_get, wp_lift, wp_guard]
  exact ⟨fun r hr => ⟨fun _ => signaled_of_event? hs (event_eq_ok_iff.mp hr), fun _ => trivial⟩, fun _ _ => trivial⟩

/-- A fired device is pending, and the set its source remembers is woken. -/
theorem wp_signalHardwareEvent (source : HardwareEventSource) (w : EventWorld) :
    wp (signalHardwareEvent source)
      (fun _ w' => w' = w ∨ (w.hardware source).eventRaw ≠ 0 ∧ w'.registry = w.registry ∧
        (∀ src, w'.hardware src = if src = source then { w.hardware source with pending := true } else w.hardware src) ∧
        w'.wakes = w.wakes ++ (fromRaw (w.hardware source).setRaw).toList)
      (fun _ _ => False) w := by
  unfold signalHardwareEvent
  rw [wp_bind, wp_get, wp_ite]
  refine ⟨fun _ => .inl rfl, fun hne => ?_⟩
  rcases hraw : (fromRaw (w.hardware source).setRaw : Option EventSetHandle) with _ | s
  · exact .inr ⟨hne, rfl, fun src => rfl, by simp [setHardware]⟩
  · exact .inr ⟨hne, rfl, fun src => rfl, rfl⟩

/-- What `wait_any` does when it returns. -/
inductive Waited (w : EventWorld) (s : EventSetHandle) (r : EventSetRecord) : EventWait → EventWorld → Prop where
  | ready {e re w'} : e ∈ r.members → w.event? e = some re → w'.Sound →
      w'.event? = Function.update w.event? e (some { re with signaled := false }) →
      w'.set? = Function.update w.set? s (some { r with waiting := false }) →
      (∀ src, w'.hardware src = consumed e (w.hardware src)) → w'.wakes = w.wakes → Waited w s r (.ready e) w'
  | idle {result w'} : result = .timeout ∨ result = .pending → (∀ e ∈ r.members, ¬ w.Ready e) → w'.Sound →
      w'.event? = w.event? → w'.set? = Function.update w.set? s (some { r with waiting := decide (result = .pending) }) →
      w'.hardware = w.hardware → w'.wakes = w.wakes → Waited w s r result w'

lemma wp_waitAny (hs : w.Sound) (owner : ServiceHandle) (s : EventSetHandle) (now : ℕ) (deadline : Option ℕ) :
    wp (waitAny owner s now deadline)
      (fun result w' => ∃ r, w.set? s = some r ∧ r.owner = owner ∧ r.invalidated = false ∧ Waited w s r result w')
      (fun _ w' => w' = w) w := by
  unfold waitAny
  simp only [wp_bind, wp_get, wp_lift, wp_guard]
  refine ⟨fun _ => ⟨fun r hr => ⟨fun hown => ⟨fun hval => ⟨fun ready hready => ?_, fun _ _ => trivial⟩,
    fun _ => trivial⟩, fun _ => trivial⟩, fun _ _ => trivial⟩, fun _ => trivial⟩
  have hset := set_eq_ok_iff.mp hr
  rcases ready with _ | e
  · rw [wp_ite]
    refine ⟨fun _ => ?_, fun _ => ?_⟩
    · exact ⟨r, hset, by simpa using hown, by simpa using hval, .idle (.inl rfl) (firstReady_none hready)
        (sound_updateSet hs _ _) rfl (set?_updateSet hset _) rfl rfl⟩
    · exact ⟨r, hset, by simpa using hown, by simpa using hval, .idle (.inr rfl) (firstReady_none hready)
        (sound_updateSet hs _ _) rfl (set?_updateSet hset _) rfl rfl⟩
  · obtain ⟨hmem, re, hre⟩ := firstReady_some hready
    have hcons := rewired_consume (w.setSignaled e false) e
    refine ⟨r, hset, by simpa using hown, by simpa using hval, .ready hmem hre
      (sound_updateSet (hcons.sound (sound_setSignaled hs e false)) _ _) ?_ ?_ hcons.hardware hcons.wakes⟩
    · exact hcons.event?.trans (event?_setSignaled hre false)
    · have hset' : ((w.setSignaled e false).consumeHardwareEvent e).set? = w.set? := hcons.set?
      exact (set?_updateSet (hset' ▸ hset) _).trans (by rw [hset'])

lemma wp_cancelWait (hs : w.Sound) (owner : ServiceHandle) (s : EventSetHandle) : wp (cancelWait owner s)
      (fun _ w' => w'.Sound ∧ ∃ r l, w.set? s = some r ∧ r.owner = owner ∧ w'.event? = w.event? ∧
        w'.set? = update w.set? s (some { r with waiting := false }) ∧
        w'.hardware = w.hardware ∧ w'.wakes = w.wakes ++ l)
      (fun _ w' => w' = w) w := by
  unfold cancelWait
  simp only [wp_bind, wp_get, wp_lift, wp_guard, wp_modify]
  refine ⟨fun r hr => ⟨fun hown => ⟨fun _ => ?_, fun _ => trivial⟩, fun _ => trivial⟩, fun _ _ => trivial⟩
  have hset := set_eq_ok_iff.mp hr
  have hsound := sound_updateSet hs s fun record => { record with waiting := false }
  rw [wp_ite]
  refine ⟨fun _ => ?_, fun _ => ?_⟩
  · exact ⟨⟨hsound.events, hsound.sets, hsound.seed⟩, r, [s], hset, by simpa using hown, rfl, set?_updateSet hset _, rfl,
      rfl⟩
  · exact ⟨hsound, r, [], hset, by simpa using hown, rfl, set?_updateSet hset _, rfl, (append_nil _).symm⟩

/-- `w'` is `w` after event `e` was destroyed. -/
structure EventGone (w : EventWorld) (e : EventHandle) (w' : EventWorld) : Prop where
  sound : w'.Sound
  event? : w'.event? = Function.update w.event? e none
  set? : ∀ s, w'.set? s = (w.set? s).map (EventSetRecord.without e)
  hardware : ∀ src, w'.hardware src = cleared e (w.hardware src)
  wakes : w'.wakes = w.wakes ++ w.registry.waiters e
  heap : w'.heap = w.heap

lemma EventGone.inherits (h : EventGone w e w') : w.Inherits w' := by
  intro k r hr
  rw [h.event?, update_apply] at hr
  split at hr
  · cases hr
  · exact ⟨r, hr, rfl⟩

lemma wp_destroyEvent (hs : w.Sound) (owner : ServiceHandle) (e : EventHandle) :
    wp (destroyEvent owner e) (fun _ w' => (∃ r, w.event? e = some r ∧ r.owner = owner) ∧ EventGone w e w')
      (fun _ w' => w' = w ∧ ∀ r, w.event? e = some r → r.owner ≠ owner) w := by
  unfold destroyEvent
  simp only [wp_bind, wp_get, wp_lift, wp_guard]
  refine ⟨fun r hr => ⟨fun hown => ?_, fun hown => ⟨trivial, fun r' hr' => ?_⟩⟩, fun err herr => ⟨trivial, fun r hr => ?_⟩⟩
  · have hev := event_eq_ok_iff.mp hr
    obtain ⟨h1, h2, h3, h4, h5, h6⟩ := dropEvent_spec (w := w.wakeWaiters e) ⟨hs.events, hs.sets, hs.seed⟩ hev
    exact ⟨⟨r, hev, by simpa using hown⟩, h1, h2, congrFun h3, h4, h5, h6⟩
  · rw [event_eq_ok_iff.mp hr] at hr'
    cases hr'
    simpa using hown
  · rw [event_eq_ok_iff.mpr hr] at herr
    cases herr

/-- `w'` is `w` after set `s` was destroyed. -/
structure SetGone (w : EventWorld) (s : EventSetHandle) (r : EventSetRecord) (w' : EventWorld) : Prop where
  sound : w'.Sound
  event? : w'.event? = w.event?
  set? : w'.set? = Function.update w.set? s none
  hardware : ∀ src, w'.hardware src = r.members.foldl (fun b e => unbound e s b) (w.hardware src)
  wakes : w'.wakes = w.wakes ++ if r.waiting then [s] else []
  heap : w'.heap = w.heap

lemma wp_destroySet (hs : w.Sound) (owner : ServiceHandle) (s : EventSetHandle) :
    wp (destroySet owner s) (fun _ w' => ∃ r, w.set? s = some r ∧ r.owner = owner ∧ SetGone w s r w')
      (fun _ w' => w' = w ∧ ∀ r, w.set? s = some r → r.owner ≠ owner) w := by
  have hend : ∀ (r : EventSetRecord) (w₁ : EventWorld), w.set? s = some r → w₁.registry = w.registry →
      w₁.hardware = w.hardware → (w₁.wakes = w.wakes ++ if r.waiting then [s] else []) → w₁.heap = w.heap →
      SetGone w s r ((fun w' => w'.setSets (w'.registry.sets.retire s.index))
        (r.members.foldl (fun w event => w.unbindAllHardwareWaitSets event s) w₁)) := by
    intro r w₁ hset hreg hhw hwakes hheap
    have hfold := rewired_foldl (fun w e => rewired_unbindAll w e s) r.members w₁
    refine ⟨?_, ?_, ?_, fun src => ?_, ?_, hfold.heap.trans hheap⟩
    · have := hfold.sound (by constructor <;> rw [hreg]; exacts [hs.events, hs.sets, hs.seed])
      exact ⟨this.events, this.sets.retire _, this.seed⟩
    · exact hfold.event?.trans (by unfold event?; rw [hreg])
    · show resolve (retire _ s.index) = _
      rw [hfold.registry, hreg]
      exact resolve_retire hset
    · exact (hfold.hardware src).trans (by rw [hhw])
    · exact hfold.wakes.trans hwakes
  unfold destroySet
  simp only [wp_bind, wp_get, wp_lift, wp_guard, wp_ite]
  refine ⟨fun r hr => ⟨fun hown => ⟨fun hwait => ?_, fun hwait => ?_⟩, fun hown => ⟨trivial, fun r' hr' => ?_⟩⟩,
    fun err herr => ⟨trivial, fun r hr => ?_⟩⟩
  · have hset := set_eq_ok_iff.mp hr
    exact ⟨r, hset, by simpa using hown, hend r _ hset rfl rfl (by rw [if_pos hwait]; rfl) rfl⟩
  · have hset := set_eq_ok_iff.mp hr
    exact ⟨r, hset, by simpa using hown, hend r _ hset rfl rfl (by rw [if_neg hwait, append_nil]) rfl⟩
  · rw [set_eq_ok_iff.mp hr] at hr'
    cases hr'
    simpa using hown
  · rw [set_eq_ok_iff.mpr hr] at herr
    cases herr

/-! ## Several events destroyed -/

variable {t : List (EventHandle × ServiceHandle)} {l : List EventSetHandle}

/-- `e` is live and is among the events to destroy, each given with the service it is destroyed for. -/
def Dies (targets : List (EventHandle × ServiceHandle)) (w : EventWorld) (e : EventHandle) : Prop :=
  ∃ r, w.event? e = some r ∧ (e, r.owner) ∈ targets

/-- `w'` is `w` after the events among `targets` were destroyed: the sets they were in are invalidated and their waiters
woken, and no other event or set is touched. -/
structure Sweeps (targets : List (EventHandle × ServiceHandle)) (w w' : EventWorld) : Prop where
  sound : w'.Sound
  heap : Generous w.heap → Generous w'.heap
  event? : ∀ e, w'.event? e = (w.event? e).filter fun r => (e, r.owner) ∉ targets
  absent : ∀ s, w.set? s = none → w'.set? s = none
  untouched : ∀ s r, w.set? s = some r → (∀ e ∈ r.members, ¬ Dies targets w e) → w'.set? s = some r
  hit : ∀ s r, w.set? s = some r → (∃ e ∈ r.members, Dies targets w e) →
    ∃ r', w'.set? s = some r' ∧ r'.owner = r.owner ∧ r'.invalidated = true ∧ r'.waiting = false ∧
      ∀ e, e ∈ r'.members ↔ e ∈ r.members ∧ ¬ Dies targets w e
  wakes : ∃ l, w'.wakes = w.wakes ++ l ∧
    ∀ s r, w.set? s = some r → r.waiting = true → (∃ e ∈ r.members, Dies targets w e) → s ∈ l

lemma Sweeps.refl (hs : w.Sound) (hno : ∀ e, ¬ Dies t w e) : Sweeps t w w where
  sound := hs
  heap := id
  event? := fun e => (filter_of_forall fun r hr => decide_eq_true (p := _ ∉ _) fun hm => hno e ⟨r, hr, hm⟩).symm
  absent := fun _ h => h
  untouched := fun _ _ h _ => h
  hit := fun _ _ _ ⟨e, _, he⟩ => absurd he (hno e)
  wakes := ⟨[], (append_nil _).symm, fun _ _ _ _ ⟨e, _, he⟩ => absurd he (hno e)⟩

lemma Sweeps.inherits (h : Sweeps t w w') : w.Inherits w' := by
  intro e r hr
  rw [h.event?, Option.filter_eq_some_iff] at hr
  exact ⟨r, hr.1, rfl⟩

variable {t₁ t₂ : List (EventHandle × ServiceHandle)}

lemma Sweeps.dies_iff (h : Sweeps t₁ w w₁) (e : EventHandle) : Dies (t₁ ++ t₂) w e ↔ Dies t₁ w e ∨ Dies t₂ w₁ e := by
  constructor
  · rintro ⟨r, hr, hmem⟩
    by_cases h1 : (e, r.owner) ∈ t₁
    · exact .inl ⟨r, hr, h1⟩
    · refine .inr ⟨r, ?_, (mem_append.mp hmem).resolve_left h1⟩
      rw [h.event?, hr, Option.filter_some, if_pos (by simpa using h1)]
  · rintro (⟨r, hr, hmem⟩ | ⟨r, hr, hmem⟩)
    · exact ⟨r, hr, mem_append_left _ hmem⟩
    · rw [h.event?, Option.filter_eq_some_iff] at hr
      exact ⟨r, hr.1, mem_append_right _ hmem⟩

/-- A set that the first sweep leaves alone is there for the second one. -/
theorem Sweeps.later (h : Sweeps t₁ w w₁) {s : EventSetHandle}
    {r : EventSetRecord} (hr : w.set? s = some r) (hno : ¬ ∃ e ∈ r.members, Dies t₁ w e)
    (hex : ∃ e ∈ r.members, Dies (t₁ ++ t₂) w e) : w₁.set? s = some r ∧ ∃ e ∈ r.members, Dies t₂ w₁ e := by
  obtain ⟨e, he, hd⟩ := hex
  exact ⟨h.untouched s r hr fun e he hd => hno ⟨e, he, hd⟩, e, he, ((h.dies_iff e).mp hd).resolve_left fun hd => hno ⟨e, he, hd⟩⟩

lemma Sweeps.trans (h1 : Sweeps t₁ w w₁) (h2 : Sweeps t₂ w₁ w₂) : Sweeps (t₁ ++ t₂) w w₂ where
  sound := h2.sound
  heap := fun hg => h2.heap (h1.heap hg)
  event? := fun e => by
    rw [h2.event?, h1.event?, Option.filter_filter]
    simp
  absent := fun s hs => h2.absent s (h1.absent s hs)
  untouched := fun s r hr hno => by
    refine h2.untouched s r (h1.untouched s r hr fun e he hd => ?_) fun e he hd => ?_
    · exact hno e he ((h1.dies_iff e).mpr (.inl hd))
    · exact hno e he ((h1.dies_iff e).mpr (.inr hd))
  hit := fun s r hr hex => by
    by_cases hfirst : ∃ e ∈ r.members, Dies t₁ w e
    · obtain ⟨r1, hr1, ho1, hinv1, hw1, hm1⟩ := h1.hit s r hr hfirst
      by_cases hsecond : ∃ e ∈ r1.members, Dies t₂ w₁ e
      · obtain ⟨r2, hr2, ho2, hinv2, hw2, hm2⟩ := h2.hit s r1 hr1 hsecond
        refine ⟨r2, hr2, ho2.trans ho1, hinv2, hw2, fun e => ?_⟩
        rw [hm2, hm1, h1.dies_iff e, not_or, and_assoc]
      · refine ⟨r1, h2.untouched s r1 hr1 fun e he hd => hsecond ⟨e, he, hd⟩, ho1, hinv1, hw1, fun e => ?_⟩
        rw [hm1, h1.dies_iff e, not_or]
        refine ⟨fun ⟨he, hd⟩ => ⟨he, hd, fun hd2 => hsecond ⟨e, (hm1 e).mpr ⟨he, hd⟩, hd2⟩⟩, fun ⟨he, hd, _⟩ => ⟨he, hd⟩⟩
    · obtain ⟨hsame, hsecond⟩ := h1.later hr hfirst hex
      obtain ⟨r2, hr2, ho2, hinv2, hw2, hm2⟩ := h2.hit s r hsame hsecond
      refine ⟨r2, hr2, ho2, hinv2, hw2, fun k => ?_⟩
      rw [hm2, h1.dies_iff k, not_or]
      exact ⟨fun ⟨hk, hd2⟩ => ⟨hk, fun hd => hfirst ⟨k, hk, hd⟩, hd2⟩, fun ⟨hk, _, hd2⟩ => ⟨hk, hd2⟩⟩
  wakes := by
    obtain ⟨l1, hl1, hw1⟩ := h1.wakes
    obtain ⟨l2, hl2, hw2⟩ := h2.wakes
    refine ⟨l1 ++ l2, by rw [hl2, hl1, append_assoc], fun s r hr hwait hex => ?_⟩
    by_cases hfirst : ∃ e ∈ r.members, Dies t₁ w e
    · exact mem_append_left _ (hw1 s r hr hwait hfirst)
    · obtain ⟨hsame, hsecond⟩ := h1.later hr hfirst hex
      exact mem_append_right _ (hw2 s r hsame hwait hsecond)

/-- More wakes do no harm. -/
theorem Sweeps.of_wakes (hw1 : w₁ = { w with wakes := w.wakes ++ l }) (h : Sweeps t w₁ w') : Sweeps t w w' := by
  subst hw1
  obtain ⟨l', hl', hw'⟩ := h.wakes
  exact ⟨h.sound, h.heap, h.event?, h.absent, h.untouched, h.hit, l ++ l', by rw [hl', append_assoc],
    fun s r hr hwait hex => mem_append_right _ (hw' s r hr hwait hex)⟩

lemma Sweeps.alike (h : Sweeps t w w₁) (ha : w₁.Alike w₂) (hg : Generous w₁.heap → Generous w₂.heap) : Sweeps t w w₂ := by
  refine ⟨ha.sound h.sound, fun hw => hg (h.heap hw), ?_, ?_, ?_, ?_, ?_⟩
  · rw [ha.event?]
    exact h.event?
  · rw [ha.set?]
    exact h.absent
  · rw [ha.set?]
    exact h.untouched
  · rw [ha.set?]
    exact h.hit
  · rw [ha.wakes]
    exact h.wakes

lemma EventGone.sweeps (hs : w.Sound) (hr : w.event? e = some r) (h : EventGone w e w') : Sweeps [(e, r.owner)] w w' := by
  have hdies : ∀ k, Dies [(e, r.owner)] w k ↔ k = e := by
    intro k
    constructor
    · rintro ⟨rk, -, hmem⟩
      exact congrArg Prod.fst (mem_singleton.mp hmem)
    · rintro rfl
      exact ⟨r, hr, mem_singleton.mpr rfl⟩
  refine ⟨h.sound, fun hg => h.heap ▸ hg, fun k => ?_, fun s hs => ?_, fun s rs hrs hno => ?_, fun s rs hrs hex => ?_,
    w.registry.waiters e, h.wakes, fun s rs hrs hwait ⟨k, hk, hd⟩ => ?_⟩
  · rw [h.event?, update_apply]
    split
    · rename_i hk
      rw [hk, hr, Option.filter_some, if_neg (by simp)]
    · rename_i hk
      exact (filter_of_forall fun rk _ => by simp [hk]).symm
  · rw [h.set?, hs]
    rfl
  · have hmem : e ∉ rs.members := fun he => hno e he ((hdies e).mpr rfl)
    rw [h.set?, hrs, Option.map_some, EventSetRecord.without, if_neg (by simpa using hmem)]
    congr 1
    rcases rs with ⟨o, m, b, i⟩
    simp only [EventSetRecord.mk.injEq, true_and, and_true]
    exact filter_eq_self.mpr fun k hk => by
      simp only [decide_eq_true_eq]
      rintro rfl
      exact hmem hk
  · obtain ⟨k, hk, hd⟩ := hex
    rw [hdies] at hd
    subst hd
    refine ⟨rs.without k, by rw [h.set?, hrs]; rfl, ?_⟩
    rw [EventSetRecord.without, if_pos (by simpa using hk)]
    refine ⟨rfl, rfl, rfl, fun e => ?_⟩
    rw [hdies]
    simp
  · rw [hdies] at hd
    subst hd
    exact (mem_waiters hs).mpr ⟨rs, hrs, hwait, hk⟩

/-- An attempt to destroy an event for its owner sweeps it, and does nothing when it is not there. -/
theorem sweeps_destroyEvent (hs : w.Sound) (owner : ServiceHandle) (e : EventHandle) :
    Sweeps [(e, owner)] w (destroyEvent owner e w).2 := by
  refine state_of_wp (wp_mono (wp_destroyEvent hs owner e) ?_ ?_)
  · rintro - w' ⟨⟨r, hr, rfl⟩, hg⟩
    exact hg.sweeps hs hr
  rintro - w' ⟨rfl, hno⟩
  refine .refl hs ?_
  rintro k ⟨rk, hrk, hmem⟩
  obtain ⟨rfl, ho⟩ := Prod.mk.inj (mem_singleton.mp hmem)
  exact hno rk hrk ho

/-- `w'` is `w` after those sets in `l` that belong to `owner` were destroyed. -/
structure SetsSwept (owner : ServiceHandle) (l : List EventSetHandle) (w w' : EventWorld) : Prop where
  sound : w'.Sound
  heap : Generous w.heap → Generous w'.heap
  event? : w'.event? = w.event?
  set? : ∀ s, w'.set? s = (w.set? s).filter fun r => !(decide (s ∈ l) && r.owner == owner)
  wakes : ∃ m, w'.wakes = w.wakes ++ m

lemma setsSwept_destroySet (hs : w.Sound) (owner : ServiceHandle) (s : EventSetHandle) :
    SetsSwept owner [s] w (destroySet owner s w).2 := by
  refine state_of_wp (wp_mono (wp_destroySet hs owner s) ?_ ?_)
  · rintro - w' ⟨r, hr, ho, hg⟩
    refine ⟨hg.sound, fun hgen => hg.heap ▸ hgen, hg.event?, fun k => ?_, _, hg.wakes⟩
    rw [hg.set?, update_apply]
    split
    · rename_i hk
      rw [hk, hr, Option.filter_some, if_neg (by simp [ho])]
    · rename_i hk
      exact (filter_of_forall fun _ _ => by simp [hk]).symm
  · rintro - w' ⟨rfl, hno⟩
    refine ⟨hs, id, rfl, fun k => (filter_of_forall fun r hr => ?_).symm, [], (append_nil _).symm⟩
    by_cases hk : k = s
    · subst hk
      simp [hno r hr]
    · simp [hk]

lemma SetsSwept.trans {owner : ServiceHandle} {m : List EventSetHandle}
    (h : SetsSwept owner l w w₁) (h' : SetsSwept owner m w₁ w₂) : SetsSwept owner (l ++ m) w w₂ where
  sound := h'.sound
  heap := fun hg => h'.heap (h.heap hg)
  event? := h'.event?.trans h.event?
  set? := fun s => by
    rw [h'.set?, h.set?, Option.filter_filter]
    congr 1
    funext r
    by_cases hl : s ∈ l <;> by_cases hm : s ∈ m <;> by_cases ho : r.owner = owner <;> simp [hl, hm]
  wakes := by
    obtain ⟨a, ha⟩ := h.wakes
    obtain ⟨b, hb⟩ := h'.wakes
    exact ⟨a ++ b, by rw [hb, ha, append_assoc]⟩

lemma SetsSwept.of_wakes {owner : ServiceHandle} (s : EventSetHandle)
    (h : SetsSwept owner l (w.wakeEventSet s) w') : SetsSwept owner l w w' := by
  obtain ⟨m, hm⟩ := h.wakes
  exact ⟨h.sound, h.heap, h.event?, h.set?, [s] ++ m, by rw [hm]; exact append_assoc _ _ _⟩

/-- **The end of a service** in the event registry: first its events are swept, then its sets. -/
theorem wp_destroyServiceEvents (hs : w.Sound) (owner : ServiceHandle) : wp (destroyServiceEvents owner)
      (fun _ w' => ∃ w₁, Sweeps ((w.registry.ownedEvents owner).map fun e => (e, owner)) w w₁ ∧
        SetsSwept owner (w₁.registry.ownedSets owner) w₁ w') (fun _ _ => False) w := by
  unfold destroyServiceEvents
  rw [wp_bind]
  refine wp_seq (wp_forEach (fun done w' => Sweeps (done.map fun e => (e, owner)) w w') ?_ (.refl hs fun _ ⟨_, _, h⟩ => nomatch h)) ?_
  · intro done e rest w₁ _ h
    simp only [wp_bind, wp_attempt]
    have hs1 : (w₁.wakeWaiters e).Sound := ⟨h.sound.events, h.sound.sets, h.sound.seed⟩
    have hstep : Sweeps [(e, owner)] w₁ (destroyEvent owner e (w₁.wakeWaiters e)).2 :=
      Sweeps.of_wakes rfl (sweeps_destroyEvent hs1 owner e)
    rw [map_append]
    exact wp_of_state (h.trans hstep)
  · intro _ w₁ h
    refine wp_mono (wp_forEach (fun done w' => SetsSwept owner done w₁ w') ?_ ?_) (fun _ w' h' => ⟨w₁, h, h'⟩) fun _ _ h => h
    · intro done s rest w₂ _ h2
      have hlast : ∀ w3, (w3 = w₂ ∨ w3 = w₂.wakeEventSet s) →
          wp (Op.attempt (destroySet owner s) : Op EventWorld EventError _)
            (fun _ w' => SetsSwept owner (done ++ [s]) w₁ w') (fun _ _ => False) w3 := by
        intro w3 hw3
        have hs3 : w3.Sound := by
          rcases hw3 with rfl | rfl
          · exact h2.sound
          · exact ⟨h2.sound.events, h2.sound.sets, h2.sound.seed⟩
        have hstep := setsSwept_destroySet hs3 owner s
        have hall : SetsSwept owner (done ++ [s]) w₁ (destroySet owner s w3).2 := by
          rcases hw3 with rfl | rfl
          · exact h2.trans hstep
          · exact h2.trans (hstep.of_wakes s)
        rw [wp_attempt]
        exact wp_of_state hall
      rw [wp_bind, wp_get]
      rcases hset : w₂.registry.set s with err | r
      · exact hlast w₂ (.inl rfl)
      · simp only [wp_ite]
        exact ⟨fun _ => hlast _ (.inr rfl), fun _ => hlast _ (.inl rfl)⟩
    · refine ⟨h.sound, id, rfl, fun s => (filter_of_forall fun _ _ => by simp).symm, [], (append_nil _).symm⟩

end LogOS.Kernel
