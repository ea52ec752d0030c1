import LogOS.Kernel.Ipc
import LogOS.Kernel.EventSpec

/-!
# What the operations on endpoints do

As for events, a world is seen through its handles, and every operation gets one lemma for the case that it returns and
the case that it fails.  Of the event registry these lemmas say that it stays sound and, where something is destroyed,
which events are swept.
-/

namespace LogOS.Kernel

open Lib Abi Op Function SlotTable RuntimeIpcRegistry List

variable {w w₁ : IpcWorld} {h : EndpointHandle} {r : EndpointRecord} {c : CapabilityHandle}

namespace IpcWorld

def endpoint? (w : IpcWorld) (endpoint : EndpointHandle) : Option EndpointRecord := resolve w.ipc.endpoints endpoint

def capability? (w : IpcWorld) (capability : CapabilityHandle) : Option CapabilityRecord :=
  resolve w.ipc.capabilities capability

structure Sound (w : IpcWorld) : Prop where
  endpoints : w.ipc.endpoints.Sound
  capabilities : w.ipc.capabilities.Sound
  events : w.events.Sound
  seed : w.ipc.generationSeed < 2 ^ 32
  capabilityGeneration : w.ipc.capabilityGeneration < 2 ^ 32

/-- The messages the live endpoints may hold together. -/
def capacities (w : IpcWorld) : ℕ := w.ipc.endpoints.total (·.queueCapacity)

/-- Every event there was lives on as it was. -/
def KeepsEvents (w w' : IpcWorld) : Prop := ∀ h r, w.events.event? h = some r → w'.events.event? h = some r

/-- `w'` shows the endpoints and capabilities that `w` showed, and no event is lost. -/
structure Alike (w w' : IpcWorld) : Prop where
  endpoint? : w'.endpoint? = w.endpoint?
  capability? : w'.capability? = w.capability?
  capacities : w'.capacities = w.capacities
  committed : w'.ipc.queueCommittedMessages = w.ipc.queueCommittedMessages
  budget : w'.ipc.queueBudgetMessages = w.ipc.queueBudgetMessages
  memory : w'.memory = w.memory
  keeps : w.KeepsEvents w'
  sound : w'.Sound

lemma Alike.refl (hs : w.Sound) : w.Alike w := ⟨rfl, rfl, rfl, rfl, rfl, rfl, fun _ _ h => h, hs⟩

lemma Alike.trans {w2 : IpcWorld} (h : w.Alike w₁) (h' : w₁.Alike w2) : w.Alike w2 :=
  ⟨h'.endpoint?.trans h.endpoint?, h'.capability?.trans h.capability?, h'.capacities.trans h.capacities,
    h'.committed.trans h.committed, h'.budget.trans h.budget, h'.memory.trans h.memory,
    fun k r hr => h'.keeps k r (h.keeps k r hr), h'.sound⟩

variable {events : EventWorld}

lemma Sound.withEvents (hs : w.Sound) (he : events.Sound) : ({ w with events := events } : IpcWorld).Sound :=
  ⟨hs.endpoints, hs.capabilities, he, hs.seed, hs.capabilityGeneration⟩

lemma alike_events (hs : w.Sound) (he : events.Sound)
    (hk : ∀ h r, w.events.event? h = some r → events.event? h = some r) : w.Alike { w with events := events } :=
  ⟨rfl, rfl, rfl, rfl, rfl, rfl, hk, hs.withEvents he⟩

lemma alike_eventsAlike (hs : w.Sound) (he : w.events.Alike events) : w.Alike { w with events := events } :=
  alike_events hs (he.sound hs.events) fun _ _ hr => by rw [he.event?, hr]

lemma sound_start (generation eventGeneration : UInt32) (budget : UInt64) (memory : ℕ → Message) :
    (start generation eventGeneration budget memory).Sound :=
  ⟨Sound.nil, Sound.nil, EventWorld.sound_start _,
    Nat.max_lt.mpr ⟨generation.toNat_lt, by decide⟩, nextGeneration_lt _⟩

lemma endpoint_eq_ok_iff : w.ipc.endpoint h = .ok r ↔ w.endpoint? h = some r := by
  unfold endpoint endpoint?
  rcases resolve w.ipc.endpoints h with _ | r' <;> simp

lemma capability_eq_ok_iff {g : CapabilityRecord} : w.ipc.capability c = .ok g ↔ w.capability? c = some g := by
  unfold capability capability?
  rcases resolve w.ipc.capabilities c with _ | g' <;> simp

lemma endpoint_eq_error {err : IpcStatus} (he : w.ipc.endpoint h = .error err) : err = .stale ∧ w.endpoint? h = none := by
  unfold endpoint at he
  unfold endpoint?
  rcases hr : resolve w.ipc.endpoints h with _ | r <;> rw [hr] at he <;> cases he
  exact ⟨rfl, rfl⟩

lemma capability_eq_error {err : IpcStatus}
    (hc : w.ipc.capability c = .error err) : err = .stale ∧ w.capability? c = none := by
  unfold capability at hc
  unfold capability?
  rcases hg : resolve w.ipc.capabilities c with _ | g <;> rw [hg] at hc <;> cases hc
  exact ⟨rfl, rfl⟩

lemma endpoint?_updateEndpoint (hr : w.endpoint? h = some r) (f : EndpointRecord → EndpointRecord) :
    (w.updateEndpoint h f).endpoint? = Function.update w.endpoint? h (some (f r)) :=
  resolve_update hr f

lemma capacities_updateEndpoint (hr : w.endpoint? h = some r)
    {f : EndpointRecord → EndpointRecord} (hf : (f r).queueCapacity = r.queueCapacity) :
    (w.updateEndpoint h f).capacities = w.capacities := by
  have := total_update hr (·.queueCapacity) f
  rw [hf] at this
  exact add_right_cancel this

lemma sound_updateEndpoint (hs : w.Sound) (h : EndpointHandle) (f : EndpointRecord → EndpointRecord) :
    (w.updateEndpoint h f).Sound :=
  ⟨hs.endpoints.update _ _, hs.capabilities, hs.events, hs.seed, hs.capabilityGeneration⟩

end IpcWorld

/-! ## Operations -/

variable {e : EndpointHandle}

open IpcWorld

lemma wp_onEvents {ε α : Type} {m : Op EventWorld ε α} {Q : α → IpcWorld → Prop} {E : ε → IpcWorld → Prop} :
    wp (onEvents m) Q E w ↔
      wp m (fun a events => Q a { w with events := events }) (fun e events => E e { w with events := events }) w.events :=
  wp_zoom

/-- A reservation changes nothing that is seen. -/
theorem wp_reserve (hs : w.Sound) (n : ℕ) (e : IpcStatus) :
    wp (onEvents (tryReserve n e)) (fun _ w' => n < 2 ^ 32 ∧ w.Alike w' ∧ w'.ipc = w.ipc) (fun _ w' => w.Alike w') w := by
  rw [wp_onEvents]
  refine wp_mono (wp_tryReserve n e w.events) ?_ ?_
  · rintro - events ⟨hn, ha, -⟩
    exact ⟨hn, alike_eventsAlike hs ha, rfl⟩
  · exact fun _ events ha => alike_eventsAlike hs ha

lemma wp_allocateEndpointSlot (hs : w.Sound) :
    wp allocateEndpointSlot (fun i w' => w.Alike w' ∧ ∃ g, w'.ipc.endpoints.FreeAt i g) (fun _ w' => w.Alike w') w := by
  unfold allocateEndpointSlot
  rw [wp_bind, wp_get]
  rcases hf : w.ipc.endpoints.firstFree with _ | i
  · refine wp_seq (wp_reserve hs _ _) ?_
    rintro - w' ⟨hlen, hal, hipc⟩
    simp only [wp_bind, wp_modify, hipc]
    exact ⟨⟨funext (resolve_append _), hal.capability?, total_append _ _ _, hal.committed, hal.budget, hal.memory,
      hal.keeps, hs.endpoints.append hs.seed hlen, hal.sound.capabilities, hal.sound.events, hal.sound.seed,
      hal.sound.capabilityGeneration⟩, max w.ipc.generationSeed 1, freeAt_append _ _⟩
  · exact ⟨Alike.refl hs, _, (roomy_of_firstFree hf).free⟩

lemma wp_allocateCapabilityRecord (hs : w.Sound) :
    wp allocateCapabilityRecord (fun i w' => w.Alike w' ∧ ∃ g, w'.ipc.capabilities.FreeAt i g)
      (fun _ w' => w.Alike w') w := by
  unfold allocateCapabilityRecord
  rw [wp_bind, wp_get]
  rcases hf : w.ipc.capabilities.firstFree with _ | i
  · refine wp_seq (wp_reserve hs _ _) ?_
    rintro - w' ⟨hlen, hal, hipc⟩
    simp only [wp_bind, wp_modify, hipc]
    exact ⟨⟨hal.endpoint?, funext (resolve_append _), hal.capacities, hal.committed, hal.budget, hal.memory, hal.keeps,
      hal.sound.endpoints, hs.capabilities.append hs.capabilityGeneration hlen, hal.sound.events, hal.sound.seed,
      hal.sound.capabilityGeneration⟩, max w.ipc.capabilityGeneration 1, freeAt_append _ _⟩
  · exact ⟨Alike.refl hs, _, (roomy_of_firstFree hf).free⟩

lemma wp_checkRequest (request : EndpointRequest) : wp (checkRequest request)
      (fun _ w' => w' = w ∧ request.isMalformed = false ∧
        request.queueCapacity ≤ w.ipc.queueBudgetMessages - w.ipc.queueCommittedMessages) (fun _ w' => w' = w) w := by
  unfold checkRequest
  simp only [wp_bind, wp_guard, wp_get]
  exact ⟨fun h1 => ⟨fun h2 => ⟨trivial, by simpa using h1, by simpa using h2⟩, fun _ => trivial⟩, fun _ => trivial⟩

/-- The events of the two ends of an endpoint, each with its service. -/
def EndpointRecord.ends (r : EndpointRecord) : List (EventHandle × ServiceHandle) :=
  [(r.readEvent, r.consumer), (r.writeEvent, r.producer)]

/-- The record of an endpoint just made. -/
def newRecord (request : EndpointRequest) (queue : QueueStorage) (h : EndpointHandle) (readEvent writeEvent : EventHandle) :
    EndpointRecord :=
  { handle := h, producer := request.producer, consumer := request.consumer, contractId := request.contractId,
    messageBytes := request.messageBytes, queueCapacity := request.queueCapacity, serviceEpoch := request.serviceEpoch,
    readEvent := readEvent, writeEvent := writeEvent, queue := queue, queueHead := 0, queueTail := 0, queueLen := 0 }

/-- `w'` is `w` with a new endpoint `h`. -/
structure EndpointMade (w : IpcWorld) (request : EndpointRequest) (queue : QueueStorage) (h : EndpointHandle)
    (w' : IpcWorld) : Prop where
  sound : w'.Sound
  formed : request.isMalformed = false
  room : request.queueCapacity ≤ w.ipc.queueBudgetMessages - w.ipc.queueCommittedMessages
  fresh : w.endpoint? h = none
  endpoint? : ∃ re we, w'.endpoint? = Function.update w.endpoint? h (some (newRecord request queue h re we))
  capability? : w'.capability? = w.capability?
  capacities : w'.capacities = w.capacities + request.queueCapacity
  committed : w'.ipc.queueCommittedMessages = min (w.ipc.queueCommittedMessages + request.queueCapacity) usizeMax
  budget : w'.ipc.queueBudgetMessages = w.ipc.queueBudgetMessages
  memory : w'.memory = w.memory
  keeps : w.KeepsEvents w'
  ends : ∀ r, w'.endpoint? h = some r → ∀ p ∈ r.ends, ∃ re, w'.events.event? p.1 = some re ∧ re.owner = p.2

lemma EndpointMade.of_alike {w' : IpcWorld} {request : EndpointRequest} {queue : QueueStorage}
    (hal : w.Alike w₁) (hbudget : w₁.ipc = w.ipc) (hm : EndpointMade w₁ request queue h w') :
    EndpointMade w request queue h w' := by
  obtain ⟨re, we, hre⟩ := hm.endpoint?
  exact ⟨hm.sound, hm.formed, hbudget ▸ hm.room, hal.endpoint? ▸ hm.fresh, ⟨re, we, hal.endpoint? ▸ hre⟩,
    hm.capability?.trans hal.capability?, hal.capacities ▸ hm.capacities, hal.committed ▸ hm.committed,
    hm.budget.trans hal.budget, hm.memory.trans hal.memory, fun k r hr => hm.keeps k r (hal.keeps k r hr), hm.ends⟩

section

variable (hs : w.Sound) (request : EndpointRequest)
include hs

lemma wp_createWriteEvent (readEvent : EventHandle) :
    wp (createWriteEvent request readEvent)
      (fun we w' => ∃ events, EventMade w.events we ⟨request.producer, 0, false⟩ events ∧ w' = { w with events := events })
      (fun _ w' => ∃ events, events.Sound ∧ w' = { w with events := events } ∧
        ∀ k r, k ≠ readEvent → w.events.event? k = some r → events.event? k = some r) w := by
  unfold createWriteEvent
  rw [wp_bind, wp_attempt, wp_onEvents]
  refine wp_mono (wp_createEventWithFlags hs.events request.producer 0) ?_ ?_
  · rintro e events ⟨-, hm⟩
    exact ⟨events, hm, rfl⟩
  intro err events ha
  rw [wp_bind, wp_attempt, wp_onEvents]
  refine wp_mono (wp_destroyEvent (ha.sound hs.events) request.consumer readEvent) ?_ ?_
  · rintro - events' ⟨-, hg⟩
    refine ⟨events', hg.sound, rfl, fun k r hne hr => ?_⟩
    rw [hg.event?, update_of_ne hne, ha.event?, hr]
  · rintro - events' ⟨rfl, -⟩
    exact ⟨_, ha.sound hs.events, rfl, fun k r _ hr => by rw [ha.event?, hr]⟩

lemma wp_createEndpointWithQueue (queue : QueueStorage) :
    wp (createEndpointWithQueue request queue) (fun h w' => EndpointMade w request queue h w') (fun _ w' => w.Alike w') w := by
  refine wp_step (wp_checkRequest request) ?_ fun _ _ h => by rw [h]; exact Alike.refl hs
  rintro - w0 ⟨rfl, hformed, hroom⟩
  refine wp_seq (wp_allocateEndpointSlot hs) ?_
  rintro i w₁ ⟨hal1, g, hfree⟩
  obtain ⟨h, hnew, -, hfresh, hstore⟩ := exists_fresh .endpoint hal1.sound.endpoints hfree
  rw [wp_bind, wp_get, generationAt_of_freeAt hfree, hnew]
  simp only [orFail, wp_bind, wp_ret, wp_mapErr, wp_onEvents]
  refine wp_mono (wp_createEventWithFlags hal1.sound.events request.consumer 0) ?_ fun _ _ h =>
    hal1.trans (alike_eventsAlike hal1.sound h)
  rintro re events ⟨-, hm⟩
  have hold : ∀ k r, w₁.events.event? k = some r → k ≠ re := by
    rintro k r hr rfl
    rw [hm.fresh] at hr
    cases hr
  have hal2 : w₁.Alike { w₁ with events := events } := alike_events hal1.sound hm.sound hm.keeps
  refine wp_mono (wp_createWriteEvent hal2.sound request re) ?_ ?_
  swap
  · rintro - w' ⟨events', hs', rfl, hkeep⟩
    exact hal1.trans (alike_events hal1.sound hs' fun k r hr => hkeep k r (hold k r hr) (hal2.keeps k r hr))
  rintro we w2 ⟨events', hm', rfl⟩
  have hne : re ≠ we := by
    rintro rfl
    have hfresh := hm'.fresh
    rw [hm.event?, update_self] at hfresh
    cases hfresh
  have hal3 : w₁.Alike { w₁ with events := events' } :=
    alike_events hal1.sound hm'.sound fun k r hr => hm'.keeps k r (hm.keeps k r hr)
  have hal := hal1.trans hal3
  have hend : resolve (w₁.ipc.endpoints.store i (newRecord request queue h re we)) =
      Function.update w0.endpoint? h (some (newRecord request queue h re we)) := by
    rw [← hal.endpoint?]
    exact hstore _
  refine ⟨⟨hal.sound.endpoints.store _ _, hal.sound.capabilities, hal.sound.events, hal.sound.seed,
    hal.sound.capabilityGeneration⟩, hformed, hroom, ?_, ⟨re, we, hend⟩, hal.capability?, ?_, ?_, hal.budget, hal.memory,
    hal.keeps, fun r hr p hp => ?_⟩
  · rw [← hal.endpoint?]
    exact hfresh
  · show total (w₁.ipc.endpoints.store i _) _ = _
    rw [total_store hfree, ← hal.capacities]
    rfl
  · rw [← hal.committed]
    rfl
  · obtain rfl : newRecord request queue h re we = r := by
      have hself := congrFun hend h
      rw [update_self] at hself
      exact Option.some.inj (hself.symm.trans hr)
    show ∃ rec, events'.event? p.1 = some rec ∧ rec.owner = p.2
    simp only [EndpointRecord.ends, newRecord, mem_cons, not_mem_nil, or_false] at hp
    rcases hp with rfl | rfl
    · exact ⟨_, by rw [hm'.event?, update_of_ne hne, hm.event?, update_self], rfl⟩
    · exact ⟨_, by rw [hm'.event?, update_self], rfl⟩

lemma wp_createEndpoint : wp (createEndpoint request)
      (fun h w' => EndpointMade w request
        (.heap (replicate request.queueCapacity (replicate ipcPageBytes 0))) h w') (fun _ w' => w.Alike w') w := by
  refine wp_step (wp_checkRequest request) ?_ fun _ _ h => by rw [h]; exact Alike.refl hs
  rintro - w0 ⟨rfl, -, -⟩
  refine wp_seq (wp_reserve hs _ _) ?_
  rintro - w₁ ⟨-, hal, hipc⟩
  refine wp_mono (wp_createEndpointWithQueue hal.sound request _) ?_ fun _ _ h => hal.trans h
  exact fun h w' hm => hm.of_alike hal hipc

lemma wp_createEndpointWithFrames (frames : List FrameAddress) :
    wp (createEndpointWithFrames request frames)
      (fun h w' => frames.length = request.queueCapacity ∧ EndpointMade w request (.frames frames) h w')
      (fun _ w' => w.Alike w') w := by
  refine wp_guard_seq (fun _ => Alike.refl hs) fun hlen => ?_
  refine wp_seq (wp_reserve hs _ _) ?_
  rintro - w₁ ⟨-, hal, hipc⟩
  refine wp_mono (wp_createEndpointWithQueue hal.sound request _) ?_ fun _ _ h => hal.trans h
  exact fun h w' hm => ⟨by simpa using hlen, hm.of_alike hal hipc⟩

end

/-- A service that has the end of the endpoint that `rights` is about. -/
def HasEnd (r : EndpointRecord) (owner : ServiceHandle) : IpcRights → Prop
  | .send => r.producer = owner
  | .receive => r.consumer = owner

/-- `w'` is `w` with a new capability `c`. -/
structure GrantMade (w : IpcWorld) (owner : ServiceHandle) (e : EndpointHandle) (rights : IpcRights)
    (c : CapabilityHandle) (w' : IpcWorld) : Prop where
  sound : w'.Sound
  endpoint? : w'.endpoint? = w.endpoint?
  fresh : w.capability? c = none
  capability? : ∃ r, w.endpoint? e = some r ∧ HasEnd r owner rights ∧
    w'.capability? = Function.update w.capability? c (some ⟨c, owner, e, rights, r.serviceEpoch⟩)
  capacities : w'.capacities = w.capacities
  committed : w'.ipc.queueCommittedMessages = w.ipc.queueCommittedMessages
  budget : w'.ipc.queueBudgetMessages = w.ipc.queueBudgetMessages
  memory : w'.memory = w.memory
  keeps : w.KeepsEvents w'

lemma wp_grant (hs : w.Sound) (owner : ServiceHandle) (e : EndpointHandle) (rights : IpcRights) :
    wp (grant owner e rights) (fun c w' => GrantMade w owner e rights c w') (fun _ w' => w.Alike w') w := by
  unfold grant
  simp only [wp_bind, wp_get, wp_lift, wp_guard]
  refine ⟨fun r hr => ⟨fun hown => ?_, fun _ => Alike.refl hs⟩, fun _ _ => Alike.refl hs⟩
  have hend : HasEnd r owner rights := by
    cases rights <;> simpa [HasEnd] using hown
  refine wp_mono (wp_allocateCapabilityRecord hs) ?_ fun _ _ h => h
  rintro i w₁ ⟨hal, g, hfree⟩
  obtain ⟨c, hnew, -, hfresh, hstore⟩ := exists_fresh .capability hal.sound.capabilities hfree
  rw [generationAt_of_freeAt hfree, hnew]
  refine ⟨⟨hal.sound.endpoints, hal.sound.capabilities.store _ _, hal.sound.events, hal.sound.seed,
    hal.sound.capabilityGeneration⟩, hal.endpoint?, ?_, ⟨r, endpoint_eq_ok_iff.mp hr, hend, ?_⟩, hal.capacities,
    hal.committed, hal.budget, hal.memory, hal.keeps⟩
  · rw [← hal.capability?]
    exact hfresh
  · rw [← hal.capability?]
    exact hstore _

/-- The capability `c` opens endpoint `e` for `caller`, and `length` is the size of its messages. -/
def Opened (w : IpcWorld) (caller : ServiceHandle) (c : CapabilityHandle) (rights : IpcRights) (length : ℕ)
    (e : EndpointHandle) (r : EndpointRecord) : Prop :=
  ∃ g, w.capability? c = some g ∧ g.owner = caller ∧ g.rights = rights ∧ g.endpoint = e ∧ w.endpoint? e = some r ∧
    g.serviceEpoch = r.serviceEpoch ∧ length = r.messageBytes

lemma Opened.unique {caller : ServiceHandle} {rights : IpcRights} {length : ℕ}
    {e' : EndpointHandle} {r' : EndpointRecord} (h : Opened w caller c rights length e r)
    (h' : Opened w caller c rights length e' r') : e' = e ∧ r' = r := by
  obtain ⟨g, hg, -, -, rfl, hr, -⟩ := h
  obtain ⟨g', hg', -, -, rfl, hr', -⟩ := h'
  rw [hg] at hg'
  cases hg'
  rw [hr] at hr'
  cases hr'
  exact ⟨rfl, rfl⟩

lemma wp_openEndpoint (w : IpcWorld) (caller : ServiceHandle) (c : CapabilityHandle) (rights : IpcRights) (length : ℕ) :
    wp (openEndpoint caller c rights length) (fun opened w' => w' = w ∧ Opened w caller c rights length opened.1 opened.2)
      (fun err w' => w' = w ∧ err ≠ .full ∧ err ≠ .empty ∧ ∀ e r, ¬ Opened w caller c rights length e r) w := by
  unfold openEndpoint
  simp only [wp_bind, wp_get, wp_lift, wp_guard, wp_pure]
  refine ⟨fun g hg => ⟨fun hown => ⟨fun r hr => ⟨fun hepoch => ⟨fun hlen => ⟨trivial, ?_⟩, fun hlen => ?_⟩, fun hepoch => ?_⟩,
    fun err herr => ?_⟩, fun hown => ?_⟩, fun err herr => ?_⟩
  · rw [Bool.and_eq_true] at hown
    exact ⟨g, capability_eq_ok_iff.mp hg, by simpa using hown.1, by simpa using hown.2, rfl, endpoint_eq_ok_iff.mp hr,
      by simpa using hepoch, by simpa using hlen⟩
  · refine ⟨trivial, by simp, by simp, ?_⟩
    rintro e r' ⟨g', hg', -, -, he, hr', -, hl⟩
    rw [capability_eq_ok_iff.mp hg] at hg'
    cases hg'
    rw [← he, endpoint_eq_ok_iff.mp hr] at hr'
    cases hr'
    simp [hl] at hlen
  · refine ⟨trivial, by simp, by simp, ?_⟩
    rintro e r' ⟨g', hg', -, -, he, hr', hep, -⟩
    rw [capability_eq_ok_iff.mp hg] at hg'
    cases hg'
    rw [← he, endpoint_eq_ok_iff.mp hr] at hr'
    cases hr'
    simp [hep] at hepoch
  · obtain ⟨rfl, hnone⟩ := endpoint_eq_error herr
    refine ⟨trivial, by simp, by simp, ?_⟩
    rintro e r' ⟨g', hg', -, -, he, hr', -⟩
    rw [capability_eq_ok_iff.mp hg] at hg'
    cases hg'
    rw [← he, hnone] at hr'
    cases hr'
  · refine ⟨trivial, by simp, by simp, ?_⟩
    rintro e r' ⟨g', hg', ho, hrt, -⟩
    rw [capability_eq_ok_iff.mp hg] at hg'
    cases hg'
    simp [ho, hrt] at hown
  · obtain ⟨rfl, hnone⟩ := capability_eq_error herr
    refine ⟨trivial, by simp, by simp, ?_⟩
    rintro e r' ⟨g', hg', -⟩
    rw [hnone] at hg'
    cases hg'

lemma events_enqueue (w : IpcWorld) (e : EndpointHandle) (r : EndpointRecord) (bytes : Message) :
    (w.enqueue e r bytes).events = w.events := by
  unfold enqueue
  rcases r.queue with cells | frames
  · rfl
  · dsimp only
    rcases frames[r.queueTail]? with _ | f <;> rfl

/-- A signal leaves the registry of events sound and makes no event. -/
theorem wp_attempt_signalIrq (hs : w.events.Sound) (e : EventHandle) :
    wp (attempt (onEvents (signalIrq e)) : Op IpcWorld IpcStatus _)
      (fun _ w' => ∃ events, events.Sound ∧ w.events.Inherits events ∧ w' = { w with events := events })
      (fun _ _ => False) w := by
  rw [wp_attempt, wp_onEvents]
  refine wp_mono (wp_signalIrq hs e) ?_ ?_
  · exact fun _ events hsig => ⟨events, hsig.sound, hsig.inherits, rfl⟩
  · rintro - events rfl
    exact ⟨_, hs, .refl _, rfl⟩

lemma wp_send (hs : w.Sound) (caller : ServiceHandle) (c : CapabilityHandle) (bytes : Message) :
    wp (send caller c bytes)
      (fun _ w' => ∃ e r, Opened w caller c .send bytes.length e r ∧ r.queueLen < r.queueCapacity ∧
        ∃ events, events.Sound ∧ w.events.Inherits events ∧ w' = { w.enqueue e r bytes with events := events })
      (fun err w' => w' = w ∧
        (err = .full ↔ ∃ e r, Opened w caller c .send bytes.length e r ∧ r.queueCapacity ≤ r.queueLen)) w := by
  refine wp_step (wp_openEndpoint w caller c .send bytes.length) ?_ ?_
  · rintro ⟨e, r⟩ w' ⟨rfl, hopen⟩
    simp only [wp_bind, wp_guard, wp_modify]
    refine ⟨fun hlen => ?_, fun hlen => ⟨trivial, fun _ => ⟨e, r, hopen, by simpa using hlen⟩, fun _ => trivial⟩⟩
    refine wp_mono (wp_attempt_signalIrq (by rw [events_enqueue]; exact hs.events) _) ?_ fun _ _ h => h.elim
    rintro - w₁ ⟨events, hev, hin, rfl⟩
    rw [events_enqueue] at hin
    exact ⟨e, r, hopen, by simpa using hlen, events, hev, hin, rfl⟩
  · rintro err w' ⟨rfl, hfull, -, hno⟩
    refine ⟨rfl, fun h => absurd h hfull, ?_⟩
    rintro ⟨e, r, hopen, -⟩
    exact absurd hopen (hno e r)

lemma wp_receive (hs : w.Sound) (caller : ServiceHandle) (c : CapabilityHandle) (length : ℕ) :
    wp (receive caller c length)
      (fun m w' => ∃ e r, Opened w caller c .receive length e r ∧ r.queueLen ≠ 0 ∧
        m = (w.cell r r.queueHead).getD [] ∧
        ∃ events, events.Sound ∧ w.events.Inherits events ∧ w' = { w.dequeue e r with events := events })
      (fun err w' => w' = w ∧ (err = .empty ↔ ∃ e r, Opened w caller c .receive length e r ∧ r.queueLen = 0)) w := by
  refine wp_step (wp_openEndpoint w caller c .receive length) ?_ ?_
  · rintro ⟨e, r⟩ w' ⟨rfl, hopen⟩
    simp only [wp_bind, wp_guard, wp_modify, wp_get]
    refine ⟨fun hlen => ?_, fun hlen => ⟨trivial, fun _ => ⟨e, r, hopen, by simpa using hlen⟩, fun _ => trivial⟩⟩
    refine wp_mono (wp_attempt_signalIrq (w := w'.dequeue e r) hs.events _) ?_ fun _ _ h => h.elim
    rintro - w₁ ⟨events, hev, hin, rfl⟩
    exact ⟨e, r, hopen, by simpa using hlen, rfl, events, hev, hin, rfl⟩
  · rintro err w' ⟨rfl, -, hempty, hno⟩
    refine ⟨rfl, fun h => absurd h hempty, ?_⟩
    rintro ⟨e, r, hopen, -⟩
    exact absurd hopen (hno e r)

/-! ## Teardown -/

/-- `w'` is `w` after endpoint `e` was destroyed. -/
structure EndpointGone (w : IpcWorld) (e : EndpointHandle) (r : EndpointRecord) (w' : IpcWorld) : Prop where
  sound : w'.Sound
  endpoint? : w'.endpoint? = Function.update w.endpoint? e none
  capability? : ∀ c, w'.capability? c = (w.capability? c).filter fun g => !(g.endpoint == e)
  capacities : w'.capacities + r.queueCapacity = w.capacities
  committed : w'.ipc.queueCommittedMessages = w.ipc.queueCommittedMessages - r.queueCapacity
  budget : w'.ipc.queueBudgetMessages = w.ipc.queueBudgetMessages
  memory : w'.memory = w.memory
  events : Sweeps r.ends w.events w'.events

lemma wp_attempt_destroyEvent (hs : w.events.Sound) (owner : ServiceHandle) (e : EventHandle) :
    wp (attempt (onEvents (destroyEvent owner e)) : Op IpcWorld IpcStatus _)
      (fun _ w' => ∃ events, Sweeps [(e, owner)] w.events events ∧ w' = { w with events := events })
      (fun _ _ => False) w := by
  rw [wp_attempt]
  exact wp_of_state ⟨_, sweeps_destroyEvent hs owner e, rfl⟩

lemma wp_takeQueueFrames (hg : Generous w.events.heap) {queue : QueueStorage}
    (hsize : ∀ frames, queue = .frames frames → frames.length < 2 ^ 32) :
    wp (takeQueueFrames queue)
      (fun _ w' => ∃ events, w.events.Alike events ∧ Generous events.heap ∧ w' = { w with events := events })
      (fun _ _ => False) w := by
  rcases queue with cells | frames
  · exact ⟨w.events, EventWorld.Alike.refl _, hg, rfl⟩
  · unfold takeQueueFrames
    rw [wp_bind, wp_onEvents]
    refine wp_mono (wp_tryReserve_generous (hsize frames rfl) _ hg) ?_ fun _ _ h => h
    rintro - events ⟨hal, hgen⟩
    exact ⟨events, hal, hgen, rfl⟩

/-- Destroying an endpoint succeeds when the allocator refuses nothing. -/
theorem wp_destroyEndpoint (hs : w.Sound) (hg : Generous w.events.heap) (e : EndpointHandle)
    (hsize : ∀ r frames, w.endpoint? e = some r → r.queue = .frames frames → frames.length < 2 ^ 32) :
    wp (destroyEndpoint e) (fun _ w' => ∃ r, w.endpoint? e = some r ∧ EndpointGone w e r w')
      (fun _ w' => w' = w ∧ w.endpoint? e = none) w := by
  unfold destroyEndpoint destroyEndpointInner removeEndpoint
  simp only [wp_bind, wp_get, wp_lift, wp_modify]
  refine ⟨fun r hr => ?_, fun err herr => ⟨trivial, (endpoint_eq_error herr).2⟩⟩
  have hrec := endpoint_eq_ok_iff.mp hr
  refine wp_mono (wp_attempt_destroyEvent (w := w.setCommitted (w.ipc.queueCommittedMessages - r.queueCapacity))
    hs.events r.consumer r.readEvent) ?_
    fun _ _ (h : False) => h.elim
  rintro - w₁ ⟨events1, hsweep1, rfl⟩
  refine wp_mono (wp_attempt_destroyEvent hsweep1.sound r.producer r.writeEvent) ?_
    fun _ _ (h : False) => h.elim
  rintro - w2 ⟨events2, hsweep2, rfl⟩
  have hsweep : Sweeps r.ends w.events events2 := hsweep1.trans hsweep2
  refine wp_mono (wp_takeQueueFrames (hsweep.heap hg) fun frames hq => hsize r frames hrec hq) ?_
    fun _ _ (h : False) => h.elim
  rintro frames w3 ⟨events3, hal, hgen, rfl⟩
  have hsweep3 := hsweep.alike hal fun _ => hgen
  exact ⟨r, hrec, ⟨hs.endpoints.retire _, hs.capabilities.retireAll _, hsweep3.sound, hs.seed, hs.capabilityGeneration⟩,
    resolve_retire hrec, fun c => lookup_retireAll _ _ _, total_retire hrec _, rfl, rfl, rfl, hsweep3⟩

/-- Every endpoint knows its own handle, and its frames fit a list. -/
structure Formed (w : IpcWorld) : Prop where
  sound : w.Sound
  handle : ∀ e r, w.endpoint? e = some r → r.handle = e
  size : ∀ e r frames, w.endpoint? e = some r → r.queue = .frames frames → frames.length < 2 ^ 32

lemma mem_endpointsOf (hf : Formed w) {s : ServiceHandle} :
    e ∈ w.ipc.endpointsOf s ↔ ∃ r, w.endpoint? e = some r ∧ (r.producer = s ∨ r.consumer = s) := by
  unfold endpointsOf
  simp only [mem_map, mem_filter, mem_values_iff, Bool.or_eq_true, beq_iff_eq]
  constructor
  · rintro ⟨r, ⟨⟨i, g, hl⟩, hs⟩, rfl⟩
    obtain ⟨hi, hg, -⟩ := hf.sound.endpoints.of_lookup hl
    obtain ⟨e, -, rfl, rfl⟩ := Handle.exists_new .endpoint hi hg
    have hr : w.endpoint? e = some r := hl
    rw [hf.handle e r hr]
    exact ⟨r, hr, hs⟩
  · rintro ⟨r, hr, hs⟩
    exact ⟨r, ⟨⟨e.index, e.generation, hr⟩, hs⟩, hf.handle e r hr⟩

/-- The events of both ends of the endpoints in `l`. -/
def endsOf (w : IpcWorld) (l : List EndpointHandle) : List (EventHandle × ServiceHandle) :=
  l.flatMap fun e => ((w.endpoint? e).map EndpointRecord.ends).getD []

/-- `w'` is `w` after the endpoints in `l` were destroyed. -/
structure EndpointsGone (w : IpcWorld) (l : List EndpointHandle) (w' : IpcWorld) : Prop where
  sound : w'.Sound
  generous : Generous w'.events.heap
  endpoint? : ∀ e, w'.endpoint? e = if e ∈ l then none else w.endpoint? e
  capability? : ∀ c, w'.capability? c = (w.capability? c).filter fun g => decide (g.endpoint ∉ l)
  committed : w.ipc.queueCommittedMessages = w.capacities → w'.ipc.queueCommittedMessages = w'.capacities
  committed_le : w'.ipc.queueCommittedMessages ≤ w.ipc.queueCommittedMessages
  budget : w'.ipc.queueBudgetMessages = w.ipc.queueBudgetMessages
  memory : w'.memory = w.memory
  events : Sweeps (endsOf w l) w.events w'.events

lemma EndpointsGone.nil (hs : w.Sound) (hg : Generous w.events.heap) : EndpointsGone w [] w :=
  ⟨hs, hg, fun _ => by simp, fun _ => (filter_of_forall fun _ _ => by simp).symm, id, le_rfl, rfl, rfl,
    .refl hs.events fun _ ⟨_, _, h⟩ => nomatch h⟩

lemma EndpointsGone.push {w2 : IpcWorld} {l : List EndpointHandle} (h : EndpointsGone w l w₁)
    (hr : w₁.endpoint? e = some r) (hg : EndpointGone w₁ e r w2) : EndpointsGone w (l ++ [e]) w2 := by
  have hnot : e ∉ l := by
    intro he
    rw [h.endpoint?, if_pos he] at hr
    cases hr
  have hr0 : w.endpoint? e = some r := by
    rw [h.endpoint?, if_neg hnot] at hr
    exact hr
  refine ⟨hg.sound, hg.events.heap h.generous, fun k => ?_, fun c => ?_, fun hw => ?_, ?_, hg.budget.trans h.budget,
    hg.memory.trans h.memory, ?_⟩
  · rw [hg.endpoint?]
    by_cases hk : k = e
    · simp [hk]
    · simp [hk, h.endpoint?]
  · rw [hg.capability?, h.capability?, Option.filter_filter]
    congr 1
    funext g
    by_cases h1 : g.endpoint = e <;> by_cases h2 : g.endpoint ∈ l <;> simp [h1]
  · have hc := h.committed hw
    have hcap := hg.capacities
    rw [hg.committed]
    omega
  · rw [hg.committed]
    exact (Nat.sub_le _ _).trans h.committed_le
  · have hends : endsOf w (l ++ [e]) = endsOf w l ++ r.ends := by
      unfold endsOf
      rw [flatMap_append, flatMap_singleton, hr0]
      rfl
    rw [hends]
    exact h.events.trans hg.events

/-- An endpoint destroyed already is not found a second time. -/
theorem EndpointsGone.again {l : List EndpointHandle} (h : EndpointsGone w l w₁)
    (he : e ∈ l) : EndpointsGone w (l ++ [e]) w₁ := by
  have hmem : ∀ k, k ∈ l ++ [e] ↔ k ∈ l := fun k => by
    rw [mem_append, mem_singleton]
    exact ⟨fun hk => hk.elim id fun hk => hk ▸ he, .inl⟩
  have hends : ∀ p, p ∈ endsOf w (l ++ [e]) ↔ p ∈ endsOf w l := fun p => by
    unfold endsOf
    simp only [mem_flatMap, hmem]
  have hdies : ∀ k, Dies (endsOf w (l ++ [e])) w.events k ↔ Dies (endsOf w l) w.events k := fun k => by
    unfold Dies
    simp [hends]
  refine ⟨h.sound, h.generous, fun k => ?_, fun c => ?_, h.committed, h.committed_le, h.budget, h.memory, h.events.sound,
    h.events.heap, fun k => ?_, h.events.absent, fun s rs hrs hno => ?_, fun s rs hrs hex => ?_, ?_⟩
  · simp [h.endpoint?, hmem]
  · simp [h.capability?, hmem]
  · simp [h.events.event?, hends]
  · exact h.events.untouched s rs hrs fun k hk hd => hno k hk ((hdies k).mpr hd)
  · simp only [hdies] at hex ⊢
    exact h.events.hit s rs hrs hex
  · simp only [hdies]
    exact h.events.wakes

/-- `w'` is `w` after the service `s` was torn down. -/
structure ServiceGone (w : IpcWorld) (s : ServiceHandle) (w' : IpcWorld) : Prop where
  sound : w'.Sound
  endpoint? : ∀ e, w'.endpoint? e = if e ∈ w.ipc.endpointsOf s then none else w.endpoint? e
  capability? : ∀ c, w'.capability? c =
    (w.capability? c).filter fun g => decide (g.endpoint ∉ w.ipc.endpointsOf s) && !(g.owner == s)
  committed : w.ipc.queueCommittedMessages = w.capacities → w'.ipc.queueCommittedMessages = w'.capacities
  committed_le : w'.ipc.queueCommittedMessages ≤ w.ipc.queueCommittedMessages
  budget : w'.ipc.queueBudgetMessages = w.ipc.queueBudgetMessages
  memory : w'.memory = w.memory
  events : ∃ ev₁ ev₂, Sweeps (endsOf w (w.ipc.endpointsOf s)) w.events ev₁ ∧
    Sweeps ((ev₁.registry.ownedEvents s).map fun e => (e, s)) ev₁ ev₂ ∧
    SetsSwept s (ev₂.registry.ownedSets s) ev₂ w'.events

/-- **Teardown of a service**, when the allocator refuses nothing. -/
theorem wp_destroyService (hf : Formed w) (hg : Generous w.events.heap) (s : ServiceHandle) :
    wp (destroyService s) (fun _ w' => ServiceGone w s w') (fun _ _ => False) w := by
  unfold destroyService
  rw [wp_bind]
  refine wp_seq (wp_forEach (EndpointsGone w) ?_ (EndpointsGone.nil hf.sound hg)) ?_
  · intro done e rest w₁ hsplit h
    obtain ⟨r0, hr0, -⟩ := (mem_endpointsOf hf).mp (hsplit ▸ mem_append_right _ mem_cons_self : e ∈ w.ipc.endpointsOf s)
    have hsize : ∀ r frames, w₁.endpoint? e = some r → r.queue = .frames frames → frames.length < 2 ^ 32 := by
      intro r frames hr hq
      rw [h.endpoint?] at hr
      split at hr
      · cases hr
      · exact hf.size e r frames hr hq
    rw [wp_bind, wp_attempt]
    refine wp_mono (wp_destroyEndpoint h.sound h.generous e hsize) ?_ ?_
    · rintro - w2 ⟨r, hr, hgone⟩
      exact h.push hr hgone
    rintro - w2 ⟨rfl, hnone⟩
    refine h.again ?_
    rw [h.endpoint?] at hnone
    by_contra hmem
    rw [if_neg hmem, hr0] at hnone
    cases hnone
  · intro _ w₁ h
    rw [wp_bind, wp_modify, wp_mapErr, wp_onEvents]
    refine wp_mono (wp_destroyServiceEvents h.events.sound s) ?_ fun _ _ h => h
    rintro - events ⟨ev1, hsweep, hsets⟩
    refine ⟨⟨h.sound.endpoints, h.sound.capabilities.retireAll _, hsets.sound, h.sound.seed, h.sound.capabilityGeneration⟩,
      h.endpoint?, fun c => ?_, h.committed, h.committed_le, h.budget, h.memory, _, _, h.events, hsweep, hsets⟩
    refine (lookup_retireAll _ _ _).trans ?_
    show (w₁.capability? c).filter _ = _
    rw [h.capability?, Option.filter_filter]

end LogOS.Kernel
