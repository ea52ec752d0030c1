import LogOS.Kernel.Channels

/-!
# Teardown of a service

`destroy_service` takes away everything a service touched, in four tables: the endpoints with the service at one end,
the capabilities it owns or that name such an endpoint, and in the event registry its events and sets and the events of
both ends of the endpoints.  A set of another service that contained one of these events is invalidated and woken.
Nothing else changes.

An endpoint names its events by handle, and these handles are good for as long as their generations do not come back,
which takes `2 ^ 32 - 1` reuses of one slot; `Reissued` is a call that brings one back.
-/

namespace LogOS.Kernel

open Lib Abi Op IpcWorld EndpointRecord List Option Function
open EventWorld (Inherits SameOwners)

/-! ## What teardown has to do -/

/-- The endpoint `e` is live and has the service at one of its ends. -/
def Touches (w : IpcWorld) (s : ServiceHandle) (e : EndpointHandle) : Prop :=
  ∃ r, w.endpoint? e = some r ∧ (r.producer = s ∨ r.consumer = s)

/-- The event was live in `w` and is gone in `w'`. -/
def Lost (w w' : IpcWorld) (e : EventHandle) : Prop := w.events.event? e ≠ none ∧ w'.events.event? e = none

/-- **What the end of the service `s` leaves behind.** -/
structure TornDown (w : IpcWorld) (s : ServiceHandle) (w' : IpcWorld) : Prop where
  endpoints : ∀ e r, w'.endpoint? e = some r → r.producer ≠ s ∧ r.consumer ≠ s
  capabilities : ∀ c g, w'.capability? c = some g → g.owner ≠ s ∧ ¬ Touches w s g.endpoint
  events : ∀ e r, w'.events.event? e = some r → r.owner ≠ s
  sets : ∀ σ r, w'.events.set? σ = some r → r.owner ≠ s
  ends : ∀ e r, w.endpoint? e = some r → r.producer = s ∨ r.consumer = s →
    w'.events.event? r.readEvent = none ∧ w'.events.event? r.writeEvent = none
  endpoint_kept : ∀ e, ¬ Touches w s e → w'.endpoint? e = w.endpoint? e
  queue_kept : ∀ r i, w'.cell r i = w.cell r i
  capability_kept : ∀ c g, w.capability? c = some g → g.owner ≠ s → ¬ Touches w s g.endpoint → w'.capability? c = some g
  event_kept : ∀ e r, w.events.event? e = some r → r.owner ≠ s →
    (∀ k rk, w.endpoint? k = some rk → rk.producer = s ∨ rk.consumer = s → e ≠ rk.readEvent ∧ e ≠ rk.writeEvent) →
    w'.events.event? e = some r
  set_kept : ∀ σ r, w.events.set? σ = some r → r.owner ≠ s → (∀ e ∈ r.members, ¬ Lost w w' e) →
    w'.events.set? σ = some r
  set_invalidated : ∀ σ r, w.events.set? σ = some r → r.owner ≠ s → (∃ e ∈ r.members, Lost w w' e) →
    ∃ r', w'.events.set? σ = some r' ∧ r'.invalidated = true ∧ r'.waiting = false
  set_woken : ∃ woken, w'.events.wakes = w.events.wakes ++ woken ∧
    ∀ σ r, w.events.set? σ = some r → r.waiting = true → (∃ e ∈ r.members, Lost w w' e) → σ ∈ woken

/-- An event that a live endpoint names was gone, and its handle was given out again. -/
def Reissued (w w' : IpcWorld) : Prop :=
  ∃ e r p, w.endpoint? e = some r ∧ p ∈ r.ends ∧ w.events.event? p.1 = none ∧ w'.events.event? p.1 ≠ none

/-! ## Endpoints and their events -/

variable {e : EndpointHandle} {r : EndpointRecord}

/-- The events an endpoint names belong to its ends. -/
structure Tied (w : IpcWorld) : Prop extends Formed w where
  owned : ∀ e r, w.endpoint? e = some r → ∀ p ∈ r.ends, ∀ re, w.events.event? p.1 = some re → re.owner = p.2

/-- `r'` is the record `r` of an endpoint that was only used. -/
structure SameEnds (r r' : EndpointRecord) : Prop where
  handle : r'.handle = r.handle
  ends : r'.ends = r.ends
  frames : ∀ frames, r'.queue = .frames frames → r.queue = .frames frames

lemma SameEnds.refl (r : EndpointRecord) : SameEnds r r := ⟨rfl, rfl, fun _ h => h⟩

namespace Tied

variable {w w' : IpcWorld}

/-- The events of an endpoint there was are still those of its ends. -/
theorem owned_of (h : Tied w) (howners : w.events.SameOwners w'.events) (hre : ¬ Reissued w w')
    (hr : w.endpoint? e = some r) {p : EventHandle × ServiceHandle} (hp : p ∈ r.ends)
    {re : EventRecord} (he : w'.events.event? p.1 = some re) : re.owner = p.2 := by
  rcases hev : w.events.event? p.1 with _ | re0
  · refine absurd ⟨e, r, p, hr, hp, hev, ?_⟩ hre
    rw [he]
    exact some_ne_none re
  · rw [howners p.1 re0 re hev he]
    exact h.owned e r hr p hp re0 hev

/-- A call that makes no endpoint. -/
theorem used (h : Tied w) (hs : w'.Sound) (howners : w.events.SameOwners w'.events) (hre : ¬ Reissued w w')
    (hold : ∀ e r', w'.endpoint? e = some r' → ∃ r, w.endpoint? e = some r ∧ SameEnds r r') : Tied w' where
  sound := hs
  handle := fun e r' hr' => by
    obtain ⟨r, hr, hsame⟩ := hold e r' hr'
    rw [hsame.handle]
    exact h.handle e r hr
  size := fun e r' frames hr' hq => by
    obtain ⟨r, hr, hsame⟩ := hold e r' hr'
    exact h.size e r frames hr (hsame.frames frames hq)
  owned := fun e r' hr' p hp re he => by
    obtain ⟨r, hr, hsame⟩ := hold e r' hr'
    rw [hsame.ends] at hp
    exact h.owned_of howners hre hr hp he

lemma alike (h : Tied w) (ha : w.Alike w') (hre : ¬ Reissued w w') : Tied w' :=
  h.used ha.sound (.of_keeps ha.keeps) hre fun e r' hr' => ⟨r', by rw [← ha.endpoint?, hr'], .refl r'⟩

lemma opened (h : Tied w) {request : EndpointRequest} {queue : QueueStorage}
    (hm : EndpointMade w request queue e w') (hre : ¬ Reissued w w')
    (hsize : ∀ frames, queue = .frames frames → frames.length = request.queueCapacity) : Tied w' := by
  obtain ⟨re, we, hend⟩ := hm.endpoint?
  have hcases k r (hr : w'.endpoint? k = some r) := eq_some_of_update hend hr
  refine ⟨⟨hm.sound, fun k r hr => ?_, fun k r frames hr hq => ?_⟩, fun k r hr p hp rp hrp => ?_⟩
  · rcases hcases k r hr with ⟨rfl, rfl⟩ | ⟨-, hr⟩
    · rfl
    · exact h.handle k r hr
  · rcases hcases k r hr with ⟨rfl, rfl⟩ | ⟨-, hr⟩
    · have hformed := hm.formed
      simp only [EndpointRequest.isMalformed, Bool.or_eq_false_iff, decide_eq_false_iff_not] at hformed
      have hlen := hsize frames hq
      omega
    · exact h.size k r frames hr hq
  · rcases hcases k r hr with ⟨rfl, -⟩ | ⟨-, hr0⟩
    · obtain ⟨rp', hrp', ho⟩ := hm.ends r hr p hp
      rw [hrp] at hrp'
      cases hrp'
      exact ho
    · exact h.owned_of (.of_keeps hm.keeps) hre hr0 hp hrp

end Tied

variable {w : IpcWorld}

/-- The queue of an endpoint used to send lies where it lay. -/
theorem sameEnds_enqueue (hr : w.endpoint? e = some r)
    (bytes : Message) {k : EndpointHandle} {r' : EndpointRecord} (hr' : (w.enqueue e r bytes).endpoint? k = some r') :
    ∃ r, w.endpoint? k = some r ∧ SameEnds r r' := by
  -- Whatever is stored first, the record of `e` is updated at last.
  have hlast : ∀ (w1 : IpcWorld) (r1 : EndpointRecord), w1.endpoint? = update w.endpoint? e (some r1) →
      SameEnds r r1 → (w1.updateEndpoint e fun r' =>
        { r' with queueTail := (r.queueTail + 1) % r.queueCapacity, queueLen := r.queueLen + 1 }).endpoint? k = some r' →
      ∃ r, w.endpoint? k = some r ∧ SameEnds r r' := by
    intro w1 r1 hw1 hsame hk
    rw [endpoint?_updateEndpoint (by rw [hw1, update_self]), hw1, update_idem] at hk
    rcases eq_some_of_update rfl hk with ⟨rfl, rfl⟩ | ⟨-, hk⟩
    · exact ⟨r, hr, ⟨hsame.handle, hsame.ends, hsame.frames⟩⟩
    · exact ⟨r', hk, .refl r'⟩
  have hself : w.endpoint? = update w.endpoint? e (some r) := by
    rw [← hr, update_eq_self]
  unfold enqueue at hr'
  rcases hq : r.queue with cells | frames
  · rw [hq] at hr'
    exact hlast _ _ (endpoint?_updateEndpoint hr _) ⟨rfl, rfl, fun _ h => by cases h⟩ hr'
  rw [hq] at hr'
  dsimp only at hr'
  rcases hget : frames[r.queueTail]? with _ | f
  · rw [hget] at hr'
    exact hlast _ _ hself (.refl r) hr'
  · rw [hget] at hr'
    exact hlast _ _ hself (.refl r) hr'

lemma sound_enqueue (hs : w.Sound) (e : EndpointHandle) (r : EndpointRecord) (bytes : Message) :
    (w.enqueue e r bytes).Sound := by
  unfold enqueue
  rcases r.queue with cells | frames
  · exact sound_updateEndpoint (sound_updateEndpoint hs _ _) _ _
  dsimp only
  rcases frames[r.queueTail]? with _ | f
  · exact sound_updateEndpoint hs _ _
  · have hs' : (w.writeFrame f bytes).Sound :=
      ⟨hs.endpoints, hs.capabilities, hs.events, hs.seed, hs.capabilityGeneration⟩
    exact sound_updateEndpoint hs' _ _

lemma sameEnds_dequeue (hr : w.endpoint? e = some r)
    {k : EndpointHandle} {r' : EndpointRecord} (hr' : (w.dequeue e r).endpoint? k = some r') :
    ∃ r, w.endpoint? k = some r ∧ SameEnds r r' := by
  rcases eq_some_of_update (endpoint?_updateEndpoint hr _) hr' with ⟨rfl, rfl⟩ | ⟨-, hr'⟩
  · exact ⟨r, hr, ⟨rfl, rfl, fun _ h => h⟩⟩
  · exact ⟨r', hr', .refl r'⟩

/-! ## Destroying, whatever the allocator answers -/

variable {w' : IpcWorld}

/-- `w'` has no endpoint and no event that `w` has not. -/
structure Shrinks (w w' : IpcWorld) : Prop where
  sound : w'.Sound
  endpoint? : ∀ e r, w'.endpoint? e = some r → w.endpoint? e = some r
  events : w.events.Inherits w'.events

namespace Shrinks

lemma refl (hs : w.Sound) : Shrinks w w := ⟨hs, fun _ _ h => h, .refl _⟩

lemma trans {w1 w2 : IpcWorld} (h : Shrinks w w1) (h' : Shrinks w1 w2) : Shrinks w w2 :=
  ⟨h'.sound, fun e r hr => h.endpoint? e r (h'.endpoint? e r hr), h.events.trans h'.events⟩

lemma withEvents (h : Shrinks w w') {events : EventWorld} (hs : events.Sound)
    (hin : w'.events.Inherits events) : Shrinks w { w' with events := events } :=
  ⟨h.sound.withEvents hs, h.endpoint?, h.events.trans hin⟩

lemma tied (hsh : Shrinks w w') (h : Tied w) (hre : ¬ Reissued w w') : Tied w' :=
  h.used hsh.sound hsh.events.sameOwners hre fun e r hr => ⟨r, hsh.endpoint? e r hr, .refl r⟩

end Shrinks

lemma shrinks_destroyEndpoint (hs : w.Sound) (e : EndpointHandle) : Shrinks w (destroyEndpoint e w).2 := by
  refine state_of_wp ?_
  unfold destroyEndpoint destroyEndpointInner removeEndpoint
  simp only [wp_bind, wp_lift, wp_modify]
  refine ⟨fun r hr => ?_, fun _ _ => .refl hs⟩
  have hrec := endpoint_eq_ok_iff.mp hr
  have h0 : Shrinks w (w.setCommitted (w.ipc.queueCommittedMessages - r.queueCapacity)) :=
    ⟨⟨hs.endpoints, hs.capabilities, hs.events, hs.seed, hs.capabilityGeneration⟩, fun _ _ h => h, .refl _⟩
  refine wp_mono (wp_attempt_destroyEvent h0.sound.events r.consumer r.readEvent) ?_ fun _ _ (h : False) => h.elim
  rintro - w1 ⟨events1, hsweep1, rfl⟩
  have h1 := h0.withEvents hsweep1.sound hsweep1.inherits
  refine wp_mono (wp_attempt_destroyEvent hsweep1.sound r.producer r.writeEvent) ?_ fun _ _ (h : False) => h.elim
  rintro - w2 ⟨events2, hsweep2, rfl⟩
  have h2 := h1.withEvents hsweep2.sound hsweep2.inherits
  -- The endpoint goes only when the reservation is granted.
  have hgone : ∀ {events3 : EventWorld}, events2.Alike events3 →
      Shrinks w { w with
        ipc := { w.ipc with
          endpoints := w.ipc.endpoints.retire e.index,
          capabilities := w.ipc.capabilities.retireAll fun grant => grant.endpoint == e,
          queueCommittedMessages := w.ipc.queueCommittedMessages - r.queueCapacity },
        events := events3 } := by
    intro events3 hal
    refine ⟨⟨hs.endpoints.retire _, hs.capabilities.retireAll _, hal.sound hsweep2.sound, hs.seed,
      hs.capabilityGeneration⟩, fun k rk hk => ?_, h2.events.trans (.of_eq hal.event?)⟩
    have hk' : resolve (w.ipc.endpoints.retire e.index) k = some rk := hk
    rw [resolve_retire hrec, update_apply] at hk'
    split at hk'
    · cases hk'
    · exact hk'
  rcases r.queue with cells | frames
  · exact hgone (.refl _)
  unfold takeQueueFrames
  rw [wp_bind, wp_onEvents]
  refine wp_mono (wp_tryReserve _ _ _) ?_ ?_
  · rintro - events3 ⟨-, hal, -⟩
    exact hgone hal
  · intro _ events3 hal
    exact h2.withEvents (hal.sound hsweep2.sound) (.of_eq hal.event?)

lemma shrinks_destroyService (hs : w.Sound) (s : ServiceHandle) : Shrinks w (destroyService s w).2 := by
  refine state_of_wp ?_
  unfold destroyService
  rw [wp_bind]
  refine wp_seq (wp_forEach (fun _ w' => Shrinks w w') ?_ (.refl hs)) ?_
  · intro done e rest w1 _ h
    have hstep := h.trans (shrinks_destroyEndpoint h.sound e)
    exact wp_of_state hstep
  · intro _ w1 h
    rw [wp_bind, wp_modify, wp_mapErr, wp_onEvents]
    refine wp_mono (wp_destroyServiceEvents h.sound.events s) ?_ fun _ _ (hf : False) => hf.elim
    rintro - events ⟨ev1, hsweep, hsets⟩
    exact ⟨⟨h.sound.endpoints, h.sound.capabilities.retireAll _, hsets.sound, h.sound.seed, h.sound.capabilityGeneration⟩,
      h.endpoint?, h.events.trans (hsweep.inherits.trans (.of_eq hsets.event?))⟩

/-! ## Runs -/

/-- **One call.**  A call that gives no handle of a dead event out again leaves the endpoints tied to their events. -/
theorem tied_run (h : Tied w) (call : IpcCall) (hre : ¬ Reissued w (call.run w).2) : Tied (call.run w).2 := by
  suffices hwp : wp call.run (fun _ w' => ¬ Reissued w w' → Tied w') (fun _ w' => ¬ Reissued w w' → Tied w') w from
    state_of_wp hwp hre
  cases call with
  | createEndpoint request =>
    refine wp_step (wp_createEndpoint h.sound request) ?_ fun _ _ ha => h.alike ha
    exact fun e w' hm hre => h.opened hm hre nofun
  | createEndpointWithFrames request frames =>
    refine wp_step (wp_createEndpointWithFrames h.sound request frames) ?_ fun _ _ ha => h.alike ha
    rintro e w' ⟨hlen, hm⟩ hre
    refine h.opened hm hre fun _ hq => ?_
    cases hq
    exact hlen
  | grant owner endpoint rights =>
    refine wp_step (wp_grant h.sound owner endpoint rights) ?_ fun _ _ ha => h.alike ha
    exact fun c w' hm hre => h.used hm.sound (.of_keeps hm.keeps) hre fun e r hr => ⟨r, by rw [← hm.endpoint?, hr], .refl r⟩
  | send caller c bytes =>
    refine wp_step (wp_send h.sound caller c bytes) ?_ fun _ _ hw _ => hw.1 ▸ h
    rintro - w' ⟨e, r, ⟨g, -, -, -, -, hr, -⟩, -, events, hev, hin, rfl⟩ hre
    refine h.used ?_ hin.sameOwners hre fun k r' hr' => sameEnds_enqueue hr bytes hr'
    exact (sound_enqueue h.sound e r bytes).withEvents hev
  | receive caller c length =>
    refine wp_step (wp_receive h.sound caller c length) ?_ fun _ _ hw _ => hw.1 ▸ h
    rintro m w' ⟨e, r, ⟨g, -, -, -, -, hr, -⟩, -, -, events, hev, hin, rfl⟩ hre
    refine h.used ?_ hin.sameOwners hre fun k r' hr' => sameEnds_dequeue hr hr'
    exact (sound_updateEndpoint h.sound _ _).withEvents hev
  | destroyEndpoint e =>
    exact wp_step (wp_of_state ((shrinks_destroyEndpoint h.sound e).tied h)) (fun _ _ h => h) fun _ _ h => h
  | destroyService s =>
    exact wp_step (wp_of_state ((shrinks_destroyService h.sound s).tied h)) (fun _ _ h => h) fun _ _ h => h
  | event call =>
    have hevent : ∀ events : EventWorld, events.Sound ∧ w.events.SameOwners events →
        ¬ Reissued w { w with events := events } → Tied { w with events := events } :=
      fun events he hre => h.used (h.sound.withEvents he.1) he.2 hre fun e r hr => ⟨r, hr, .refl r⟩
    refine wp_bind.mpr ?_
    rw [wp_attempt, wp_onEvents]
    exact wp_mono (wp_eventCall h.sound.events call) (fun _ events he => hevent events he) fun _ events he =>
      hevent events he

/-- The world in which a call runs when the allocator answers as `answers` says. -/
def IpcWorld.answering (w : IpcWorld) (answers : List Bool) : IpcWorld :=
  { w with events := { w.events with heap := answers } }

lemma Tied.answering (h : Tied w) (answers : List Bool) : Tied (w.answering answers) :=
  ⟨⟨h.sound.withEvents ⟨h.sound.events.events, h.sound.events.sets, h.sound.events.seed⟩, h.handle, h.size⟩, h.owned⟩

/-- No call brings back the handle of a dead event that a live endpoint names. -/
def NoReissue (w : IpcWorld) (call : IpcCall) (answers : List Bool) : Prop :=
  ¬ Reissued w (call.run (w.answering answers)).2

lemma IpcSession.tied_of_reached {s : IpcSession} (h : Reached NoReissue s) : Tied s.world := by
  induction h with
  | start => exact ⟨⟨sound_start _ _ _ _, nofun, nofun⟩, nofun⟩
  | step _ call answers hcall ih => exact tied_run (ih.answering answers) call hcall

/-! ## What teardown does -/

/-- An event dies in a sweep exactly when it is lost. -/
theorem dies_iff_lost {t : List (EventHandle × ServiceHandle)} {ev : EventWorld}
    (h : Sweeps t w.events ev) (hev : w'.events.event? = ev.event?) (e : EventHandle) : Dies t w.events e ↔ Lost w w' e := by
  unfold Dies Lost
  rw [hev, h.event?]
  rcases w.events.event? e with _ | r
  · simp
  · simp [filter_some]

lemma tornDown_of_serviceGone (h : Tied w) {s : ServiceHandle} (hg : ServiceGone w s w') : TornDown w s w' := by
  have htouch : ∀ e, e ∈ w.ipc.endpointsOf s ↔ Touches w s e := fun e => mem_endpointsOf h.toFormed
  obtain ⟨ev1, ev2, hends, howned, hsets⟩ := hg.events
  have hall := hends.trans howned
  have hlost := dies_iff_lost hall hsets.event?
  have hend : ∀ e r, w.endpoint? e = some r → r.producer = s ∨ r.consumer = s → ∀ p ∈ r.ends,
      w'.events.event? p.1 = none := by
    intro e r hr hs p hp
    have hmem : p ∈ endsOf w (w.ipc.endpointsOf s) := by
      refine mem_flatMap.mpr ⟨e, (htouch e).mpr ⟨r, hr, hs⟩, ?_⟩
      rw [hr]
      exact hp
    rw [hsets.event?, hall.event?, filter_eq_none_iff]
    intro re hre
    rw [h.owned e r hr p hp re hre]
    simp [hmem]
  refine ⟨fun e r hr => ?_, fun c g hc => ?_, fun e r hr ho => ?_, fun σ r hr ho => ?_, fun e r hr hs => ?_, fun e he => ?_,
    fun r i => by rw [cell_congr hg.memory], fun c g hc ho ht => ?_, fun e r hr ho hno => ?_, fun σ r hr ho hno => ?_,
    fun σ r hr ho hex => ?_, ?_⟩
  · rw [hg.endpoint?] at hr
    split at hr
    · cases hr
    · rename_i hnot
      rw [htouch] at hnot
      exact ⟨fun hp => hnot ⟨r, hr, .inl hp⟩, fun hc => hnot ⟨r, hr, .inr hc⟩⟩
  · rw [hg.capability?, filter_eq_some_iff] at hc
    simpa [htouch, and_comm] using hc.2
  · rw [hsets.event?, howned.event?, filter_eq_some_iff] at hr
    have hmem := (EventWorld.mem_ownedEvents hends.sound).mpr ⟨r, hr.1, ho⟩
    simp [ho, hmem] at hr
  · rw [hsets.set?, filter_eq_some_iff] at hr
    have hmem := (EventWorld.mem_ownedSets howned.sound).mpr ⟨r, hr.1, ho⟩
    simp [ho, hmem] at hr
  · exact ⟨hend e r hr hs (r.readEvent, r.consumer) (by simp [ends]),
      hend e r hr hs (r.writeEvent, r.producer) (by simp [ends])⟩
  · rw [hg.endpoint?, if_neg ((htouch e).not.mpr he)]
  · rw [hg.capability?, hc, filter_some, if_pos]
    simp [htouch, ho, ht]
  · rw [hsets.event?, hall.event?, hr, filter_some, if_pos]
    simp only [decide_eq_true_eq]
    intro hmem
    rcases mem_append.mp hmem with hmem | hmem
    · obtain ⟨k, hk, hp⟩ := mem_flatMap.mp hmem
      obtain ⟨rk, hrk, hs⟩ := (htouch k).mp hk
      rw [hrk] at hp
      simp only [map_some, getD_some, ends, mem_cons, Prod.mk.injEq, not_mem_nil, or_false] at hp
      obtain ⟨h1, h2⟩ := hno k rk hrk hs
      rcases hp with ⟨hp, -⟩ | ⟨hp, -⟩
      · exact h1 hp
      · exact h2 hp
    · obtain ⟨k, -, hp⟩ := mem_map.mp hmem
      exact ho (Prod.mk.inj hp).2.symm
  · rw [hsets.set?, hall.untouched σ r hr fun e he hd => hno e he ((hlost e).mp hd), filter_some, if_pos]
    simp [ho]
  · obtain ⟨e, he, hle⟩ := hex
    obtain ⟨r', hr', ho', hinv, hwait, -⟩ := hall.hit σ r hr ⟨e, he, (hlost e).mpr hle⟩
    refine ⟨r', ?_, hinv, hwait⟩
    rw [hsets.set?, hr', filter_some, if_pos]
    simp [ho', ho]
  · obtain ⟨l, hl, hwoken⟩ := hall.wakes
    obtain ⟨m, hm⟩ := hsets.wakes
    refine ⟨l ++ m, by rw [hm, hl, append_assoc], fun σ r hr hwait hex => ?_⟩
    obtain ⟨e, he, hle⟩ := hex
    exact mem_append_left _ (hwoken σ r hr hwait ⟨e, he, (hlost e).mpr hle⟩)

lemma TornDown.of_answering {s : ServiceHandle} {answers : List Bool}
    (h : TornDown (w.answering answers) s w') : TornDown w s w' :=
  ⟨h.endpoints, h.capabilities, h.events, h.sets, h.ends, h.endpoint_kept, h.queue_kept, h.capability_kept, h.event_kept,
    h.set_kept, h.set_invalidated, h.set_woken⟩

namespace IpcSession

end IpcSession

end LogOS.Kernel
