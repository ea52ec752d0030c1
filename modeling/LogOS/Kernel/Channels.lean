import Mathlib.Data.List.Nodup
import LogOS.Lib.Ring
import LogOS.Kernel.IpcSpec
import LogOS.Kernel.EventWaits

/-!
# Endpoints as channels

What an endpoint is for: a first-in-first-out channel of bounded capacity between two services, used through grants.
`Channels` is that abstract state, with the whole history of every channel.  It is kept up from the calls and their
results alone, so it says who was granted what and which messages were accepted and delivered, and nothing about slots,
generations or rings.

The registry refines it: the messages delivered are a prefix of those accepted, nobody sends or receives without a
grant that is still good, and the committed messages are those of the live endpoints.  The one way out is an allocator
that refuses the reservation in `destroy_endpoint_inner`, which by then has given the messages and the events away.
-/

namespace LogOS.Kernel

open Lib Abi Op IpcWorld Function EndpointRecord List Option
open EventWorld (Inherits)

/-! ## Channels and their history -/

structure Channel where
  producer : ServiceHandle
  consumer : ServiceHandle
  messageBytes : ℕ
  capacity : ℕ
  /-- The messages of the successful sends, in order. -/
  accepted : List Message
  /-- The messages of the successful receives, in order. -/
  delivered : List Message

/-- The messages accepted and not yet delivered. -/
def Channel.outstanding (ch : Channel) : ℕ := ch.accepted.length - ch.delivered.length

structure Grant where
  owner : ServiceHandle
  endpoint : EndpointHandle
  rights : IpcRights

/-- The channels that have been made and not destroyed, and the grants given and not revoked. -/
structure Channels where
  channel : EndpointHandle → Option Channel
  grant : CapabilityHandle → Option Grant

inductive IpcCall where
  | createEndpoint (request : EndpointRequest)
  | createEndpointWithFrames (request : EndpointRequest) (frames : List FrameAddress)
  | grant (owner : ServiceHandle) (endpoint : EndpointHandle) (rights : IpcRights)
  | send (caller : ServiceHandle) (capability : CapabilityHandle) (bytes : Message)
  | receive (caller : ServiceHandle) (capability : CapabilityHandle) (length : ℕ)
  | destroyEndpoint (endpoint : EndpointHandle)
  | destroyService (service : ServiceHandle)
  | event (call : EventCall)

inductive IpcReply where
  | endpoint (handle : EndpointHandle)
  | capability (handle : CapabilityHandle)
  | message (bytes : Message)
  | done

def IpcCall.run : IpcCall → Op IpcWorld IpcStatus IpcReply
  | .createEndpoint request => Kernel.createEndpoint request >>= fun h => pure (.endpoint h)
  | .createEndpointWithFrames request frames => Kernel.createEndpointWithFrames request frames >>= fun h => pure (.endpoint h)
  | .grant owner endpoint rights => Kernel.grant owner endpoint rights >>= fun c => pure (.capability c)
  | .send caller capability bytes => Kernel.send caller capability bytes >>= fun _ => pure .done
  | .receive caller capability length => Kernel.receive caller capability length >>= fun m => pure (.message m)
  | .destroyEndpoint endpoint => Kernel.destroyEndpoint endpoint >>= fun _ => pure .done
  | .destroyService service => Kernel.destroyService service >>= fun _ => pure .done
  | .event call => Op.attempt (onEvents call.run) >>= fun _ => pure .done

namespace Channels

def empty : Channels := ⟨fun _ => none, fun _ => none⟩

def opened (a : Channels) (h : EndpointHandle) (request : EndpointRequest) : Channels where
  channel := Function.update a.channel h
    (some ⟨request.producer, request.consumer, request.messageBytes, request.queueCapacity, [], []⟩)
  grant := a.grant

def granted (a : Channels) (c : CapabilityHandle) (g : Grant) : Channels :=
  { a with grant := Function.update a.grant c (some g) }

/-- The channel that capability `c` was granted for, changed by `f`. -/
def through (a : Channels) (c : CapabilityHandle) (f : Channel → Channel) : Channels :=
  match a.grant c with
  | some g => { a with channel := Function.update a.channel g.endpoint ((a.channel g.endpoint).map f) }
  | none => a

def closed (a : Channels) (h : EndpointHandle) : Channels where
  channel := Function.update a.channel h none
  grant := fun c => (a.grant c).filter fun g => decide (g.endpoint ≠ h)

/-- A channel with the service at one of its ends. -/
def touches (a : Channels) (s : ServiceHandle) (h : EndpointHandle) : Bool :=
  (a.channel h).any fun ch => ch.producer == s || ch.consumer == s

def withoutService (a : Channels) (s : ServiceHandle) : Channels where
  channel := fun h => if a.touches s h then none else a.channel h
  grant := fun c => (a.grant c).filter fun g => !a.touches s g.endpoint && !(g.owner == s)

/-- What a call and its result say about the channels. -/
def observe (a : Channels) : IpcCall → Except IpcStatus IpcReply → Channels
  | .createEndpoint request, .ok (.endpoint h) => a.opened h request
  | .createEndpointWithFrames request _, .ok (.endpoint h) => a.opened h request
  | .grant owner endpoint rights, .ok (.capability c) => a.granted c ⟨owner, endpoint, rights⟩
  | .send _ c bytes, .ok _ => a.through c fun ch => { ch with accepted := ch.accepted ++ [bytes] }
  | .receive _ c _, .ok (.message m) => a.through c fun ch => { ch with delivered := ch.delivered ++ [m] }
  | .destroyEndpoint h, .ok _ => a.closed h
  | .destroyService s, _ => a.withoutService s
  | _, _ => a

end Channels

/-! ## Sessions -/

structure IpcSession where
  world : IpcWorld
  channels : Channels

namespace IpcSession

def start (generation eventGeneration : UInt32) (budget : UInt64) (memory : ℕ → Message) : IpcSession :=
  ⟨.start generation eventGeneration budget memory, .empty⟩

/-- The session after a call, in which the allocator answers as `answers` says. -/
def step (s : IpcSession) (call : IpcCall) (answers : List Bool) : IpcSession :=
  let after := call.run { s.world with events := { s.world.events with heap := answers } }
  ⟨after.2, s.channels.observe call after.1⟩

/-- The sessions reached by calls that all meet the condition `P`. -/
inductive Reached (P : IpcWorld → IpcCall → List Bool → Prop) : IpcSession → Prop where
  | start (generation eventGeneration : UInt32) (budget : UInt64) (memory : ℕ → Message) :
      Reached P (start generation eventGeneration budget memory)
  | step {s : IpcSession} (h : Reached P s) (call : IpcCall) (answers : List Bool) (hcall : P s.world call answers) :
      Reached P (s.step call answers)

/-- **What the registry promises** about the channels whose history is `s.channels`. -/
structure Faithful (s : IpcSession) : Prop where
  live : ∀ h, (s.world.endpoint? h).map (fun r => (r.producer, r.consumer, r.messageBytes, r.queueCapacity)) =
    (s.channels.channel h).map fun ch => (ch.producer, ch.consumer, ch.messageBytes, ch.capacity)
  fifo : ∀ h ch, s.channels.channel h = some ch → ch.delivered <+: ch.accepted
  bounded : ∀ h ch, s.channels.channel h = some ch → ch.outstanding ≤ ch.capacity
  send_ok : ∀ caller c bytes w', send caller c bytes s.world = (.ok (), w') →
    ∃ h ch, s.channels.grant c = some ⟨caller, h, .send⟩ ∧ s.channels.channel h = some ch ∧ ch.producer = caller
  send_full : ∀ caller c bytes, (send caller c bytes s.world).1 = .error .full ↔
    ∃ h ch, s.channels.grant c = some ⟨caller, h, .send⟩ ∧ s.channels.channel h = some ch ∧
      bytes.length = ch.messageBytes ∧ ch.outstanding = ch.capacity
  receive_ok : ∀ caller c length m w', receive caller c length s.world = (.ok m, w') →
    ∃ h ch, s.channels.grant c = some ⟨caller, h, .receive⟩ ∧ s.channels.channel h = some ch ∧ ch.consumer = caller ∧
      ch.delivered ++ [m] <+: ch.accepted
  committed : s.world.ipc.queueCommittedMessages = s.world.capacities
  budget : s.world.ipc.queueCommittedMessages ≤ s.world.ipc.queueBudgetMessages

end IpcSession

/-- The frames of a new endpoint are different from each other and from those of the live endpoints. -/
def DistinctFrames (w : IpcWorld) : IpcCall → Prop
  | .createEndpointWithFrames _ frames => (frames.map (·.raw)).Nodup ∧
      ∀ h r others, w.endpoint? h = some r → r.queue = .frames others →
        ∀ f ∈ frames, ∀ f' ∈ others, f.raw ≠ f'.raw
  | _ => True

/-- No reservation is refused to a call that destroys something. -/
def Unrefused (answers : List Bool) : IpcCall → Prop
  | .destroyEndpoint _ => Generous answers
  | .destroyService _ => Generous answers
  | _ => True

/-! ## Queues in rings -/

variable {w : IpcWorld} {bytes : Message}

/-- The cells of a queue. -/
def QueueStorage.length : QueueStorage → ℕ
  | .heap queue => queue.length
  | .frames queue => queue.length

lemma cell_congr {w' : IpcWorld} (h : w'.memory = w.memory) (r : EndpointRecord) : w'.cell r = w.cell r := by
  unfold cell
  rw [h]

/-- The record after a message was put in the cell at its tail. -/
def EndpointRecord.pushed (r : EndpointRecord) (queue : QueueStorage) : EndpointRecord :=
  { r with queue := queue, queueTail := (r.queueTail + 1) % r.queueCapacity, queueLen := r.queueLen + 1 }

/-- The record after the message in the cell at its head was taken. -/
def EndpointRecord.popped (r : EndpointRecord) : EndpointRecord :=
  { r with queueHead := (r.queueHead + 1) % r.queueCapacity, queueLen := r.queueLen - 1 }

/-- The endpoint `r` carries the channel `ch`: its ring holds what is accepted and not delivered. -/
structure Carries (w : IpcWorld) (r : EndpointRecord) (ch : Channel) : Prop where
  producer : r.producer = ch.producer
  consumer : r.consumer = ch.consumer
  messageBytes : r.messageBytes = ch.messageBytes
  capacity : r.queueCapacity = ch.capacity
  pos : 0 < r.queueCapacity
  small : r.queueCapacity < 2 ^ 32
  length : r.queue.length = r.queueCapacity
  head : r.queueHead < r.queueCapacity
  tail : r.queueTail = (r.queueHead + r.queueLen) % r.queueCapacity
  le : r.queueLen ≤ r.queueCapacity
  ring : ∃ queue, ch.accepted = ch.delivered ++ queue ∧ queue.length = r.queueLen ∧
    Ring.Holds (w.cell r) r.queueCapacity r.queueHead queue

namespace Carries

variable {w w' : IpcWorld} {r : EndpointRecord} {ch : Channel}

section

variable (h : Carries w r ch)
include h

lemma congr (hcell : ∀ i < r.queueCapacity, w'.cell r i = w.cell r i) : Carries w' r ch := by
  obtain ⟨queue, hq, hlen, hring⟩ := h.ring
  exact ⟨h.producer, h.consumer, h.messageBytes, h.capacity, h.pos, h.small, h.length, h.head, h.tail, h.le, queue, hq, hlen,
    hring.congr hcell h.pos⟩

lemma outstanding : ch.outstanding = r.queueLen := by
  obtain ⟨queue, hq, hlen, -⟩ := h.ring
  rw [Channel.outstanding, hq, length_append]
  omega

lemma isPrefix : ch.delivered <+: ch.accepted := by
  obtain ⟨queue, hq, -, -⟩ := h.ring
  exact ⟨queue, hq.symm⟩

/-- A message in the cell behind the last is accepted. -/
theorem send (hroom : r.queueLen < r.queueCapacity) {queue' : QueueStorage}
    (hlen' : queue'.length = r.queueCapacity)
    (hcell : ∀ i < r.queueCapacity, w'.cell (r.pushed queue') i = if i = r.queueTail then some bytes else w.cell r i) :
    Carries w' (r.pushed queue') { ch with accepted := ch.accepted ++ [bytes] } := by
  obtain ⟨queue, hq, hlen, hring⟩ := h.ring
  refine ⟨h.producer, h.consumer, h.messageBytes, h.capacity, h.pos, h.small, hlen', h.head, ?_, hroom, queue ++ [bytes],
    ?_, ?_, ?_⟩
  · show (r.queueTail + 1) % r.queueCapacity = (r.queueHead + (r.queueLen + 1)) % r.queueCapacity
    rw [h.tail, Nat.mod_add_mod, add_assoc]
  · show ch.accepted ++ [bytes] = ch.delivered ++ (queue ++ [bytes])
    rw [hq, append_assoc]
  · rw [length_append, hlen]
    rfl
  · have htail : (r.queueHead + queue.length) % r.queueCapacity = r.queueTail := by rw [hlen, h.tail]
    refine hring.push (by omega) (fun i hi hne => ?_) ?_
    · rw [htail] at hne
      exact (hcell i hi).trans (if_neg hne)
    · rw [htail]
      exact (hcell _ (by rw [h.tail]; exact Nat.mod_lt _ h.pos)).trans (if_pos rfl)

/-- The message in the first cell is the next to deliver. -/
theorem receive (hne : r.queueLen ≠ 0) (hw : w'.memory = w.memory) :
    ∃ m rest, w.cell r r.queueHead = some m ∧ ch.accepted = ch.delivered ++ m :: rest ∧
      Carries w' r.popped { ch with delivered := ch.delivered ++ [m] } := by
  obtain ⟨queue, hq, hlen, hring⟩ := h.ring
  rcases queue with _ | ⟨m, rest⟩
  · exact absurd hlen.symm hne
  have hrest : rest.length = r.queueLen - 1 := by
    rw [← hlen]
    rfl
  refine ⟨m, rest, hring.front h.head, hq, h.producer, h.consumer, h.messageBytes, h.capacity, h.pos, h.small, h.length,
    Nat.mod_lt _ h.pos, ?_, ?_, rest, ?_, hrest, ?_⟩
  · show r.queueTail = ((r.queueHead + 1) % r.queueCapacity + (r.queueLen - 1)) % r.queueCapacity
    rw [h.tail, Nat.mod_add_mod]
    congr 1
    omega
  · have := h.le
    show r.queueLen - 1 ≤ r.queueCapacity
    omega
  · show ch.accepted = ch.delivered ++ [m] ++ rest
    rw [hq, append_assoc]
    rfl
  · have hcell : w'.cell r.popped = w.cell r := by
      unfold cell
      rw [hw]
      rfl
    rw [hcell]
    exact hring.pop

end

end Carries

lemma take_copyFront (bytes page : Message) : (copyFront bytes page).take bytes.length = bytes := by
  rw [copyFront, take_left]

/-- `w'` is `w` with a message in the queue of endpoint `e`: of the cells only the one at the tail has changed, and of
the frames only the one of that cell. -/
structure Enqueued (w : IpcWorld) (e : EndpointHandle) (r : EndpointRecord) (bytes : Message) (queue : QueueStorage)
    (w' : IpcWorld) : Prop where
  length : queue.length = r.queue.length
  frames : ∀ frames, queue = .frames frames → r.queue = .frames frames
  endpoint? : w'.endpoint? = Function.update w.endpoint? e (some (r.pushed queue))
  cell : ∀ i < r.queue.length, w'.cell (r.pushed queue) i = if i = r.queueTail then some bytes else w.cell r i
  memory : ∀ raw, (∀ frames, r.queue = .frames frames → raw ∉ frames.map (·.raw)) → w'.memory raw = w.memory raw
  capability? : w'.capability? = w.capability?
  capacities : w'.capacities = w.capacities
  committed : w'.ipc.queueCommittedMessages = w.ipc.queueCommittedMessages
  budget : w'.ipc.queueBudgetMessages = w.ipc.queueBudgetMessages
  sound : w'.Sound

variable {e : EndpointHandle} {r : EndpointRecord}

section

variable (hs : w.Sound) (hr : w.endpoint? e = some r) (hbytes : bytes.length = r.messageBytes)
include hs hr hbytes

lemma enqueued_heap {cells : List Message} (hq : r.queue = .heap cells) :
    Enqueued w e r bytes (.heap (cells.modify r.queueTail (copyFront bytes))) (w.enqueue e r bytes) := by
  let f : EndpointRecord → EndpointRecord := fun r' =>
    { r' with queue := .heap (cells.modify r.queueTail (copyFront bytes)) }
  let g : EndpointRecord → EndpointRecord := fun r' =>
    { r' with queueTail := (r.queueTail + 1) % r.queueCapacity, queueLen := r.queueLen + 1 }
  have henq : w.enqueue e r bytes = (w.updateEndpoint e f).updateEndpoint e g := by
    unfold enqueue
    rw [hq]
  have hself : (w.updateEndpoint e f).endpoint? e = some (f r) := by
    rw [endpoint?_updateEndpoint hr, update_self]
  rw [henq]
  refine ⟨by simp [QueueStorage.length, hq], fun _ h => (by cases h), ?_, fun i hi => ?_, fun _ _ => rfl, rfl, ?_, rfl, rfl,
    sound_updateEndpoint (sound_updateEndpoint hs _ _) _ _⟩
  · rw [endpoint?_updateEndpoint hself, endpoint?_updateEndpoint hr, update_idem]
    rfl
  · have hi' : i < cells.length := by
      rw [hq] at hi
      exact hi
    simp only [IpcWorld.cell, pushed, hq]
    by_cases hit : i = r.queueTail
    · rw [← hit, getElem?_modify_eq, getElem?_eq_getElem hi']
      simp [← hbytes, take_copyFront]
    · rw [if_neg hit, getElem?_modify_ne _ _ (Ne.symm hit)]
  · rw [capacities_updateEndpoint hself rfl, capacities_updateEndpoint hr rfl]

lemma enqueued_frames {frames : List FrameAddress}
    (hq : r.queue = .frames frames) (htail : r.queueTail < frames.length) (hnodup : (frames.map (·.raw)).Nodup) :
    Enqueued w e r bytes (.frames frames) (w.enqueue e r bytes) := by
  let g : EndpointRecord → EndpointRecord := fun r' =>
    { r' with queueTail := (r.queueTail + 1) % r.queueCapacity, queueLen := r.queueLen + 1 }
  have henq : w.enqueue e r bytes = (w.writeFrame frames[r.queueTail] bytes).updateEndpoint e g := by
    unfold enqueue
    rw [hq]
    dsimp only
    rw [getElem?_eq_getElem htail]
  have hr' : (w.writeFrame frames[r.queueTail] bytes).endpoint? e = some r := hr
  have hs' : (w.writeFrame frames[r.queueTail] bytes).Sound :=
    ⟨hs.endpoints, hs.capabilities, hs.events, hs.seed, hs.capabilityGeneration⟩
  have hmem : ∀ raw, ((w.writeFrame frames[r.queueTail] bytes).updateEndpoint e g).memory raw =
      if raw = frames[r.queueTail].raw then copyFront bytes (w.memory raw) else w.memory raw := fun _ => rfl
  rw [henq]
  refine ⟨by rw [hq], fun _ h => hq.trans h, ?_, fun i hi => ?_, fun raw hraw => ?_, rfl, ?_, rfl, rfl,
    sound_updateEndpoint hs' _ _⟩
  · rw [endpoint?_updateEndpoint hr']
    show update w.endpoint? e _ = _
    rw [pushed, ← hq]
  · have hi' : i < frames.length := by
      rw [hq] at hi
      exact hi
    simp only [IpcWorld.cell, pushed, hq, getElem?_eq_getElem hi', map_some, hmem]
    by_cases hit : i = r.queueTail
    · subst hit
      simp [← hbytes, take_copyFront]
    have hraw : frames[i].raw ≠ frames[r.queueTail].raw := by
      intro heq
      have hinj := nodup_iff_injective_getElem.mp hnodup
      have hfin := @hinj ⟨i, by simpa using hi'⟩ ⟨r.queueTail, by simpa using htail⟩ (by simpa using heq)
      exact hit (congrArg Fin.val hfin)
    rw [if_neg hraw, if_neg hit]
  · rw [hmem, if_neg]
    exact fun heq => hraw frames hq (heq ▸ mem_map_of_mem (getElem_mem _))
  · rw [capacities_updateEndpoint hr' rfl]
    rfl

end

/-! ## The refinement -/

/-- The registry `w` refines the channels `a`. -/
structure Refines (w : IpcWorld) (a : Channels) : Prop where
  sound : w.Sound
  handle : ∀ e r, w.endpoint? e = some r → r.handle = e
  grant_eq : ∀ c, a.grant c = (w.capability? c).map fun g => ⟨g.owner, g.endpoint, g.rights⟩
  good : ∀ c g, w.capability? c = some g →
    ∃ r, w.endpoint? g.endpoint = some r ∧ g.serviceEpoch = r.serviceEpoch ∧ HasEnd r g.owner g.rights
  absent : ∀ e, w.endpoint? e = none → a.channel e = none
  present : ∀ e r, w.endpoint? e = some r → ∃ ch, a.channel e = some ch ∧ Carries w r ch
  nodup : ∀ e r frames, w.endpoint? e = some r → r.queue = .frames frames → (frames.map (·.raw)).Nodup
  apart : ∀ e r frames e' r' frames', w.endpoint? e = some r → r.queue = .frames frames → w.endpoint? e' = some r' →
    r'.queue = .frames frames' → e ≠ e' → ∀ f ∈ frames, ∀ f' ∈ frames', f.raw ≠ f'.raw
  committed : w.ipc.queueCommittedMessages = w.capacities
  budget : w.ipc.queueCommittedMessages ≤ w.ipc.queueBudgetMessages
  word : w.ipc.queueBudgetMessages ≤ usizeMax

lemma refines_start (generation eventGeneration : UInt32) (budget : UInt64) (memory : ℕ → Message) :
    Refines (.start generation eventGeneration budget memory) .empty where
  sound := sound_start _ _ _ _
  handle := nofun
  grant_eq := fun _ => rfl
  good := nofun
  absent := fun _ _ => rfl
  present := nofun
  nodup := nofun
  apart := nofun
  committed := rfl
  budget := Nat.zero_le _
  word := Nat.le_sub_one_of_lt budget.toNat_lt

namespace Refines

variable {w w' : IpcWorld} {a : Channels}

lemma formed (h : Refines w a) : Formed w where
  sound := h.sound
  handle := h.handle
  size := fun e r frames hr hq => by
    obtain ⟨ch, -, hch⟩ := h.present e r hr
    have hlen := hch.length
    rw [hq] at hlen
    exact lt_of_eq_of_lt hlen hch.small

/-- Endpoints taken away, with the capabilities that name them. -/
theorem removed (h : Refines w a) (hs : w'.Sound) (gone : EndpointHandle → Prop) [DecidablePred gone]
    (hend : ∀ e, w'.endpoint? e = if gone e then none else w.endpoint? e)
    (hgood : ∀ c g, w'.capability? c = some g → ¬ gone g.endpoint ∧
      ∃ r, w.endpoint? g.endpoint = some r ∧ g.serviceEpoch = r.serviceEpoch ∧ HasEnd r g.owner g.rights)
    (hcommitted : w'.ipc.queueCommittedMessages = w'.capacities)
    (hle : w'.ipc.queueCommittedMessages ≤ w.ipc.queueCommittedMessages)
    (hbudget : w'.ipc.queueBudgetMessages = w.ipc.queueBudgetMessages) (hmemory : w'.memory = w.memory) {a' : Channels}
    (hchannel : ∀ e, a'.channel e = if gone e then none else a.channel e)
    (hgrant : ∀ c, a'.grant c = (w'.capability? c).map fun g => ⟨g.owner, g.endpoint, g.rights⟩) : Refines w' a' := by
  have hold : ∀ e r, w'.endpoint? e = some r → ¬ gone e ∧ w.endpoint? e = some r := by
    intro e r hr
    rw [hend] at hr
    split at hr
    · cases hr
    · exact ⟨‹_›, hr⟩
  refine ⟨hs, fun e r hr => h.handle e r (hold e r hr).2, hgrant, fun c g hg => ?_, fun e he => ?_, fun e r hr => ?_,
    fun e r frames hr => h.nodup e r frames (hold e r hr).2,
    fun e r frames e' r' frames' hr hq hr' => h.apart e r frames e' r' frames' (hold e r hr).2 hq (hold e' r' hr').2,
    hcommitted, ?_, ?_⟩
  · obtain ⟨hnot, r, hr, hrest⟩ := hgood c g hg
    exact ⟨r, by rw [hend, if_neg hnot, hr], hrest⟩
  · rw [hchannel]
    rw [hend] at he
    split at he
    · rw [if_pos ‹_›]
    · rw [if_neg ‹_›]
      exact h.absent e he
  · obtain ⟨hnot, hr⟩ := hold e r hr
    obtain ⟨ch, hch, hcar⟩ := h.present e r hr
    refine ⟨ch, by rw [hchannel, if_neg hnot, hch], hcar.congr fun i _ => ?_⟩
    rw [cell_congr hmemory]
  · rw [hbudget]
    exact hle.trans h.budget
  · rw [hbudget]
    exact h.word

lemma alike (h : Refines w a) (ha : w.Alike w') : Refines w' a := by
  refine h.removed ha.sound (fun _ => False) (fun e => ?_) (fun c g hg => ⟨id, h.good c g (ha.capability? ▸ hg)⟩) ?_
    ha.committed.le ha.budget ha.memory (fun e => (if_neg id).symm) fun c => ?_
  · rw [ha.endpoint?, if_neg id]
  · rw [ha.committed, ha.capacities]
    exact h.committed
  · rw [ha.capability?]
    exact h.grant_eq c

/-- A new endpoint is a new, empty channel. -/
theorem opened (h : Refines w a) {request : EndpointRequest} {queue : QueueStorage}
    (hm : EndpointMade w request queue e w') (hlen : queue.length = request.queueCapacity)
    (hnodup : ∀ frames, queue = .frames frames → (frames.map (·.raw)).Nodup)
    (hapart : ∀ e r frames others, queue = .frames frames → w.endpoint? e = some r → r.queue = .frames others →
      ∀ f ∈ frames, ∀ f' ∈ others, f.raw ≠ f'.raw) : Refines w' (a.opened e request) := by
  obtain ⟨re, we, hend⟩ := hm.endpoint?
  have hcases k r (hr : w'.endpoint? k = some r) := eq_some_of_update hend hr
  have hformed := hm.formed
  simp only [EndpointRequest.isMalformed, Bool.or_eq_false_iff, decide_eq_false_iff_not, beq_eq_false_iff_ne] at hformed
  refine ⟨hm.sound, fun k r hr => ?_, fun c => ?_, fun c g hg => ?_, fun k hk => ?_, fun k r hr => ?_,
    fun k r frames hr hq => ?_, fun k r frames k' r' frames' hr hq hr' hq' hne => ?_, ?_, ?_, ?_⟩
  · rcases hcases k r hr with ⟨rfl, rfl⟩ | ⟨-, hr⟩
    · rfl
    · exact h.handle k r hr
  · rw [hm.capability?]
    exact h.grant_eq c
  · rw [hm.capability?] at hg
    obtain ⟨r, hr, hrest⟩ := h.good c g hg
    refine ⟨r, ?_, hrest⟩
    rw [hend, update_of_ne, hr]
    intro heq
    rw [heq, hm.fresh] at hr
    cases hr
  · rw [hend, update_apply] at hk
    split at hk
    · cases hk
    · rename_i hne
      exact (update_of_ne hne _ _).trans (h.absent k hk)
  · rcases hcases k r hr with ⟨rfl, rfl⟩ | ⟨hne, hr⟩
    · refine ⟨_, update_self .., rfl, rfl, rfl, rfl, ?_, ?_, hlen, ?_, ?_, Nat.zero_le _, [], rfl, rfl, Ring.holds_nil⟩
      · exact Nat.pos_of_ne_zero hformed.1.1.2
      · show request.queueCapacity < 2 ^ 32
        omega
      · exact Nat.pos_of_ne_zero hformed.1.1.2
      · exact (Nat.zero_mod _).symm
    · obtain ⟨ch, hch, hcar⟩ := h.present k r hr
      refine ⟨ch, (update_of_ne hne _ _).trans hch, hcar.congr fun i _ => ?_⟩
      rw [cell_congr hm.memory]
  · rcases hcases k r hr with ⟨rfl, rfl⟩ | ⟨-, hr⟩
    · exact hnodup frames hq
    · exact h.nodup k r frames hr hq
  · rcases hcases k r hr with ⟨rfl, rfl⟩ | ⟨hk, hr⟩
    · rcases hcases k' r' hr' with ⟨rfl, -⟩ | ⟨-, hr'⟩
      · exact absurd rfl hne
      · exact hapart k' r' frames frames' hq hr' hq'
    · rcases hcases k' r' hr' with ⟨rfl, rfl⟩ | ⟨hk', hr'⟩
      · exact fun f hf f' hf' heq => hapart k r frames' frames hq' hr hq f' hf' f hf heq.symm
      · exact h.apart k r frames k' r' frames' hr hq hr' hq' hne
  · have hroom := hm.room
    have hw := h.word
    rw [hm.committed, hm.capacities, ← h.committed]
    omega
  · have hroom := hm.room
    rw [hm.committed, hm.budget]
    omega
  · rw [hm.budget]
    exact h.word

variable {rights : IpcRights} {c : CapabilityHandle}

lemma granted (h : Refines w a) {owner : ServiceHandle}
    (hm : GrantMade w owner e rights c w') : Refines w' (a.granted c ⟨owner, e, rights⟩) := by
  obtain ⟨r, hr, hend, hcap⟩ := hm.capability?
  refine h.removed hm.sound (fun _ => False) (fun k => ?_) (fun k g hg => ⟨id, ?_⟩) ?_ hm.committed.le hm.budget hm.memory
    (fun k => (if_neg id).symm) fun k => ?_
  · rw [hm.endpoint?, if_neg id]
  · rcases eq_some_of_update hcap hg with ⟨-, rfl⟩ | ⟨-, hg⟩
    · exact ⟨r, hr, rfl, hend⟩
    · exact h.good k g hg
  · rw [hm.committed, hm.capacities]
    exact h.committed
  · rw [hcap, Channels.granted]
    by_cases hk : k = c
    · simp [hk]
    · simp only [update_of_ne hk]
      exact h.grant_eq k

/-- What an opened endpoint is in the abstract state. -/
theorem of_opened (h : Refines w a) {caller : ServiceHandle} {length : ℕ} (ho : Opened w caller c rights length e r) :
    a.grant c = some ⟨caller, e, rights⟩ ∧ HasEnd r caller rights ∧ w.endpoint? e = some r ∧ length = r.messageBytes ∧
      ∃ ch, a.channel e = some ch ∧ Carries w r ch := by
  obtain ⟨g, hg, rfl, rfl, rfl, hr, -, hlen⟩ := ho
  obtain ⟨r', hr', -, hend⟩ := h.good c g hg
  rw [hr] at hr'
  cases hr'
  exact ⟨by rw [h.grant_eq, hg]; rfl, hend, hr, hlen, h.present _ r hr⟩

/-- A grant of the abstract state opens the endpoint. -/
theorem opened_of_grant (h : Refines w a) {caller : ServiceHandle} (hg : a.grant c = some ⟨caller, e, rights⟩) :
    ∃ r, w.endpoint? e = some r ∧ ∀ length, length = r.messageBytes → Opened w caller c rights length e r := by
  rw [h.grant_eq, map_eq_some_iff] at hg
  obtain ⟨g, hg, heq⟩ := hg
  cases heq
  obtain ⟨r, hr, hepoch, -⟩ := h.good c g hg
  exact ⟨r, hr, fun length hlen => ⟨g, hg, rfl, rfl, rfl, hr, hepoch, hlen⟩⟩

variable {ch : Channel}

/-- A channel has a live endpoint that carries it. -/
theorem of_channel (h : Refines w a) (hch : a.channel e = some ch) :
    ∃ r, w.endpoint? e = some r ∧ Carries w r ch := by
  rcases hr : w.endpoint? e with _ | r
  · rw [h.absent e hr] at hch
    cases hch
  · obtain ⟨ch', hch', hcar⟩ := h.present e r hr
    rw [hch] at hch'
    cases hch'
    exact ⟨r, rfl, hcar⟩

/-- `send` finds the queue full exactly when the channel is. -/
theorem send_full (h : Refines w a) (caller : ServiceHandle) (c : CapabilityHandle) (bytes : Message) :
    (Kernel.send caller c bytes w).1 = .error .full ↔
      ∃ e ch, a.grant c = some ⟨caller, e, .send⟩ ∧ a.channel e = some ch ∧ bytes.length = ch.messageBytes ∧
        ch.outstanding = ch.capacity := by
  have hwp := wp_send h.sound caller c bytes
  constructor
  · intro hfull
    obtain ⟨e, r, hopen, hle⟩ := (wp_error hwp (Prod.ext hfull rfl)).2.mp rfl
    obtain ⟨hgrant, -, -, hbytes, ch, hch, hcar⟩ := h.of_opened hopen
    exact ⟨e, ch, hgrant, hch, hbytes.trans hcar.messageBytes,
      hcar.outstanding.trans ((hcar.le.antisymm hle).trans hcar.capacity)⟩
  · rintro ⟨e, ch, hgrant, hch, hbytes, hout⟩
    obtain ⟨r, hr, hopens⟩ := h.opened_of_grant hgrant
    obtain ⟨r', hr', hcar⟩ := h.of_channel hch
    rw [hr] at hr'
    cases hr'
    have hopen := hopens bytes.length (hbytes.trans hcar.messageBytes.symm)
    have hlen : r.queueLen = r.queueCapacity := by rw [← hcar.outstanding, hout, hcar.capacity]
    rcases hrun : Kernel.send caller c bytes w with ⟨err | _, w'⟩
    · rw [(wp_error hwp hrun).2.mpr ⟨e, r, hopen, hlen.ge⟩]
    · obtain ⟨e', r', hopen', hroom, -⟩ := wp_ok hwp hrun
      obtain ⟨-, rfl⟩ := hopen.unique hopen'
      omega

/-- A channel used through a grant is changed at its endpoint. -/
theorem through_eq {g : Grant} (hg : a.grant c = some g) (hch : a.channel g.endpoint = some ch) (f : Channel → Channel) :
    a.through c f = { a with channel := update a.channel g.endpoint (some (f ch)) } := by
  rw [Channels.through, hg]
  dsimp only
  rw [hch, map_some]

section

variable (h : Refines w a)
include h

/-- One endpoint and its channel changed. -/
theorem updated (hs : w'.Sound) {r' : EndpointRecord} {ch' : Channel}
    (hr : w.endpoint? e = some r) (hend : w'.endpoint? = update w.endpoint? e (some r'))
    (hcap : w'.capability? = w.capability?) (hcapacities : w'.capacities = w.capacities)
    (hcommitted : w'.ipc.queueCommittedMessages = w.ipc.queueCommittedMessages)
    (hbudget : w'.ipc.queueBudgetMessages = w.ipc.queueBudgetMessages) (hcar : Carries w' r' ch')
    (hsame : r'.handle = r.handle ∧ r'.serviceEpoch = r.serviceEpoch ∧ r'.producer = r.producer ∧ r'.consumer = r.consumer)
    (hframes : ∀ frames, r'.queue = .frames frames → r.queue = .frames frames)
    (hcell : ∀ k rk, k ≠ e → w.endpoint? k = some rk → ∀ i < rk.queueCapacity, w'.cell rk i = w.cell rk i) :
    Refines w' { a with channel := update a.channel e (some ch') } := by
  have hcases k rk (hrk : w'.endpoint? k = some rk) := eq_some_of_update hend hrk
  -- The frames of an endpoint are those it had.
  have hold : ∀ k rk frames, w'.endpoint? k = some rk → rk.queue = .frames frames →
      ∃ rk', w.endpoint? k = some rk' ∧ rk'.queue = .frames frames := by
    intro k rk frames hrk hq
    rcases hcases k rk hrk with ⟨rfl, rfl⟩ | ⟨-, hrk⟩
    · exact ⟨r, hr, hframes frames hq⟩
    · exact ⟨rk, hrk, hq⟩
  refine ⟨hs, fun k rk hrk => ?_, fun c => ?_, fun c g hg => ?_, fun k hk => ?_, fun k rk hrk => ?_,
    fun k rk frames hrk hq => ?_, fun k rk frames k' rk' frames' hrk hq hrk' hq' hne => ?_, ?_, ?_, ?_⟩
  · rcases hcases k rk hrk with ⟨rfl, rfl⟩ | ⟨-, hrk⟩
    · rw [hsame.1]
      exact h.handle k r hr
    · exact h.handle k rk hrk
  · rw [hcap]
    exact h.grant_eq c
  · rw [hcap] at hg
    obtain ⟨rg, hrg, hepoch, hhas⟩ := h.good c g hg
    by_cases hge : g.endpoint = e
    · rw [hge, hr] at hrg
      cases hrg
      refine ⟨r', by rw [hend, hge, update_self], hepoch.trans hsame.2.1.symm, ?_⟩
      cases hrights : g.rights with
      | send =>
        rw [hrights] at hhas
        exact hsame.2.2.1.trans hhas
      | receive =>
        rw [hrights] at hhas
        exact hsame.2.2.2.trans hhas
    · exact ⟨rg, by rw [hend, update_of_ne hge, hrg], hepoch, hhas⟩
  · rw [hend, update_apply] at hk
    split at hk
    · cases hk
    · rename_i hne
      exact (update_of_ne hne _ _).trans (h.absent k hk)
  · rcases hcases k rk hrk with ⟨rfl, rfl⟩ | ⟨hne, hrk⟩
    · exact ⟨ch', update_self .., hcar⟩
    · obtain ⟨ch, hch, hcar⟩ := h.present k rk hrk
      exact ⟨ch, (update_of_ne hne _ _).trans hch, hcar.congr (hcell k rk hne hrk)⟩
  · obtain ⟨rk', hrk', hq'⟩ := hold k rk frames hrk hq
    exact h.nodup k rk' frames hrk' hq'
  · obtain ⟨r1, hr1, hq1⟩ := hold k rk frames hrk hq
    obtain ⟨r2, hr2, hq2⟩ := hold k' rk' frames' hrk' hq'
    exact h.apart k r1 frames k' r2 frames' hr1 hq1 hr2 hq2 hne
  · rw [hcommitted, hcapacities]
    exact h.committed
  · rw [hcommitted, hbudget]
    exact h.budget
  · rw [hbudget]
    exact h.word

/-- Nothing depends on the event registry. -/
theorem withEvents {events : EventWorld} (he : events.Sound) : Refines { w with events := events } a :=
  h.removed (h.sound.withEvents he) (fun _ => False) (fun _ => (if_neg id).symm) (fun c g hg => ⟨id, h.good c g hg⟩)
    h.committed le_rfl rfl rfl (fun _ => (if_neg id).symm) h.grant_eq

lemma enqueued (hr : w.endpoint? e = some r) (hcar : Carries w r ch) (hroom : r.queueLen < r.queueCapacity)
    (hbytes : bytes.length = r.messageBytes) :
    Refines (w.enqueue e r bytes)
      { a with channel := update a.channel e (some { ch with accepted := ch.accepted ++ [bytes] }) } := by
  have htail : r.queueTail < r.queue.length := by
    rw [hcar.length, hcar.tail]
    exact Nat.mod_lt _ hcar.pos
  obtain ⟨queue, henq⟩ : ∃ queue, Enqueued w e r bytes queue (w.enqueue e r bytes) := by
    rcases hq : r.queue with cells | frames
    · exact ⟨_, enqueued_heap h.sound hr hbytes hq⟩
    · rw [hq] at htail
      exact ⟨_, enqueued_frames h.sound hr hbytes hq htail (h.nodup e r frames hr hq)⟩
  refine h.updated henq.sound hr henq.endpoint? henq.capability? henq.capacities henq.committed henq.budget
    (hcar.send hroom (henq.length.trans hcar.length) fun i hi => henq.cell i (hi.trans_eq hcar.length.symm))
    ⟨rfl, rfl, rfl, rfl⟩ henq.frames fun k rk hne hrk i _ => ?_
  -- Another endpoint lies in other frames.
  unfold cell
  rcases hqk : rk.queue with cells | frames
  · rfl
  dsimp only
  rcases hget : frames[i]? with _ | f
  · rfl
  · have hmem : (w.enqueue e r bytes).memory f.raw = w.memory f.raw := by
      refine henq.memory f.raw fun others hq hraw => ?_
      obtain ⟨f', hf', heq⟩ := mem_map.mp hraw
      exact h.apart k rk frames e r others hrk hqk hr hq hne f (mem_of_getElem? hget) f' hf' heq.symm
    simp [hmem]

lemma dequeued (hr : w.endpoint? e = some r) (hcar : Carries w r ch) (hne : r.queueLen ≠ 0) :
    ∃ m rest, w.cell r r.queueHead = some m ∧ ch.accepted = ch.delivered ++ m :: rest ∧
      Refines (w.dequeue e r)
        { a with channel := update a.channel e (some { ch with delivered := ch.delivered ++ [m] }) } := by
  have hmemory : (w.dequeue e r).memory = w.memory := rfl
  obtain ⟨m, rest, hcell, hacc, hcar'⟩ := hcar.receive hne hmemory
  refine ⟨m, rest, hcell, hacc, ?_⟩
  exact h.updated (sound_updateEndpoint h.sound _ _) hr (endpoint?_updateEndpoint hr _) rfl
    (capacities_updateEndpoint hr rfl) rfl rfl hcar' ⟨rfl, rfl, rfl, rfl⟩ (fun _ hq => hq) fun _ _ _ _ _ _ => rfl

lemma closed (hg : EndpointGone w e r w') : Refines w' (a.closed e) := by
  have hcap := hg.capacities
  have hcom := hg.committed
  have h0 := h.committed
  refine h.removed hg.sound (· = e) (fun k => ?_) (fun c g hk => ?_) (by omega) (by omega)
    hg.budget hg.memory (fun k => ?_) fun c => ?_
  · rw [hg.endpoint?, update_apply]
  · rw [hg.capability?, Option.filter_eq_some_iff] at hk
    exact ⟨by simpa using hk.2, h.good c g hk.1⟩
  · exact update_apply ..
  · dsimp only [Channels.closed]
    rw [h.grant_eq, hg.capability?]
    rcases w.capability? c with _ | g
    · rfl
    · by_cases hge : g.endpoint = e <;> simp [hge, Option.filter]

lemma touches_iff (s : ServiceHandle) (e : EndpointHandle) : a.touches s e = true ↔ e ∈ w.ipc.endpointsOf s := by
  rw [mem_endpointsOf h.formed, Channels.touches]
  rcases hr : w.endpoint? e with _ | r
  · rw [h.absent e hr]
    simp
  · obtain ⟨ch, hch, hcar⟩ := h.present e r hr
    rw [hch]
    simp [hcar.producer, hcar.consumer]

lemma withoutService {s : ServiceHandle} (hg : ServiceGone w s w') : Refines w' (a.withoutService s) := by
  refine h.removed hg.sound (· ∈ w.ipc.endpointsOf s) hg.endpoint? (fun c g hk => ?_)
    (hg.committed h.committed) hg.committed_le hg.budget hg.memory (fun e => ?_) fun c => ?_
  · rw [hg.capability?, Option.filter_eq_some_iff, Bool.and_eq_true] at hk
    exact ⟨by simpa using hk.2.1, h.good c g hk.1⟩
  · exact if_congr (h.touches_iff s e) rfl rfl
  dsimp only [Channels.withoutService]
  rw [h.grant_eq, hg.capability?]
  rcases w.capability? c with _ | g
  · rfl
  · have ht : a.touches s g.endpoint = decide (g.endpoint ∈ w.ipc.endpointsOf s) := by
      rw [Bool.eq_iff_iff, h.touches_iff, decide_eq_true_iff]
    by_cases h1 : g.endpoint ∈ w.ipc.endpointsOf s <;> by_cases h2 : g.owner = s <;> simp [Option.filter, ht, h1, h2]

end

end Refines

/-! ## Runs -/

/-- Every call on the event registry keeps its tables sound, and the owners of its events. -/
theorem wp_eventCall {w : EventWorld} (hs : w.Sound) (call : EventCall) :
    wp call.run (fun _ w' => w'.Sound ∧ w.SameOwners w') (fun _ w' => w'.Sound ∧ w.SameOwners w') w := by
  have hsame : ∀ w', w'.Sound → w'.event? = w.event? → w'.Sound ∧ w.SameOwners w' :=
    fun w' hs' h => ⟨hs', (Inherits.of_eq h).sameOwners⟩
  have halike : ∀ w', w.Alike w' → w'.Sound ∧ w.SameOwners w' := fun w' h => hsame w' (h.sound hs) h.event?
  have heq : ∀ w', w' = w → w'.Sound ∧ w.SameOwners w' := fun w' h => hsame w' (h ▸ hs) (h ▸ rfl)
  cases call with
  | createEvent owner =>
    refine wp_step (wp_createEventWithFlags hs owner 0) ?_ fun _ w' => halike w'
    exact fun e w' hm => ⟨hm.2.sound, .of_keeps hm.2.keeps⟩
  | createHardwareEvent owner source =>
    refine wp_step (wp_createHardwareEvent hs owner source) ?_ fun _ w' => halike w'
    rintro e - ⟨w1, flags, hm, rfl⟩
    exact ⟨⟨hm.sound.events, hm.sound.sets, hm.sound.seed⟩, .of_keeps hm.keeps⟩
  | createSet owner =>
    refine wp_step (wp_createSet hs owner) ?_ fun _ w' => halike w'
    exact fun s w' hm => hsame w' hm.sound hm.event?
  | add owner set event =>
    refine wp_step (wp_add hs owner set event) ?_ fun _ w' => halike w'
    rintro - w' ⟨hs', r, re, -, -, -, -, -, -, hev, -⟩
    exact hsame w' hs' hev
  | remove owner set event =>
    refine wp_step (wp_remove hs owner set event) ?_ fun _ w' => halike w'
    rintro - w' ⟨hs', r, -, -, -, hev, -⟩
    exact hsame w' hs' hev
  | signal owner event =>
    refine wp_step (wp_signal hs owner event) ?_ fun _ w' => heq w'
    exact fun _ w' hsig => ⟨hsig.sound, hsig.inherits.sameOwners⟩
  | signalIrq event =>
    refine wp_step (wp_signalIrq hs event) ?_ fun _ w' => heq w'
    exact fun _ w' hsig => ⟨hsig.sound, hsig.inherits.sameOwners⟩
  | signalHardwareEvent source =>
    refine wp_step (wp_signalHardwareEvent source w) ?_ fun _ _ h => h.elim
    rintro - w' (hw | ⟨-, hreg, -⟩)
    · exact heq w' hw
    · refine hsame w' ⟨hreg ▸ hs.events, hreg ▸ hs.sets, hreg ▸ hs.seed⟩ ?_
      unfold EventWorld.event?
      rw [hreg]
  | waitAny owner set now deadline =>
    refine wp_step (wp_waitAny hs owner set now deadline) ?_ fun _ w' => heq w'
    rintro result w' ⟨r, -, -, -, hwaited⟩
    cases hwaited with
    | ready _ hre hs' hev => exact ⟨hs', (Inherits.of_update hre hev rfl).sameOwners⟩
    | idle _ _ hs' hev => exact hsame w' hs' hev
  | cancelWait owner set =>
    refine wp_step (wp_cancelWait hs owner set) ?_ fun _ w' => heq w'
    rintro - w' ⟨hs', r, l, -, -, hev, -⟩
    exact hsame w' hs' hev
  | destroyEvent owner event =>
    refine wp_step (wp_destroyEvent hs owner event) ?_ fun _ w' hw => heq w' hw.1
    exact fun _ w' hg => ⟨hg.2.sound, hg.2.inherits.sameOwners⟩
  | destroySet owner set =>
    refine wp_step (wp_destroySet hs owner set) ?_ fun _ w' hw => heq w' hw.1
    rintro - w' ⟨r, -, -, hg⟩
    exact hsame w' hg.sound hg.event?

/-- **One call.**  Every call takes the registry and the channels to a registry and channels that refine each other. -/
theorem refines_run {a : Channels} (h : Refines w a) (call : IpcCall) (hframes : DistinctFrames w call)
    (hanswers : Unrefused w.events.heap call) :
    wp call.run (fun reply w' => Refines w' (a.observe call (.ok reply)))
      (fun err w' => Refines w' (a.observe call (.error err))) w := by
  cases call with
  | createEndpoint request =>
    refine wp_step (wp_createEndpoint h.sound request) ?_ fun _ _ ha => h.alike ha
    intro e w' hm
    exact h.opened hm length_replicate nofun nofun
  | createEndpointWithFrames request frames =>
    refine wp_step (wp_createEndpointWithFrames h.sound request frames) ?_ fun _ _ ha => h.alike ha
    rintro e w' ⟨hlen, hm⟩
    refine h.opened hm hlen (fun _ hq => ?_) fun k r _ others hq => ?_
    · cases hq
      exact hframes.1
    · cases hq
      exact hframes.2 k r others
  | grant owner endpoint rights =>
    refine wp_step (wp_grant h.sound owner endpoint rights) ?_ fun _ _ ha => h.alike ha
    exact fun c w' hm => h.granted hm
  | send caller c bytes =>
    refine wp_step (wp_send h.sound caller c bytes) ?_ fun _ _ hw => hw.1 ▸ h
    rintro - w' ⟨e, r, hopen, hroom, events, hev, -, rfl⟩
    obtain ⟨hgrant, -, hr, hbytes, ch, hch, hcar⟩ := h.of_opened hopen
    show Refines _ (a.through c _)
    rw [Refines.through_eq hgrant hch]
    exact (h.enqueued hr hcar hroom hbytes).withEvents hev
  | receive caller c length =>
    refine wp_step (wp_receive h.sound caller c length) ?_ fun _ _ hw => hw.1 ▸ h
    rintro m w' ⟨e, r, hopen, hne, rfl, events, hev, -, rfl⟩
    obtain ⟨hgrant, -, hr, -, ch, hch, hcar⟩ := h.of_opened hopen
    obtain ⟨m, rest, hcell, -, hrefines⟩ := h.dequeued hr hcar hne
    show Refines _ (a.through c _)
    rw [Refines.through_eq hgrant hch, hcell]
    exact hrefines.withEvents hev
  | destroyEndpoint e =>
    refine wp_step (wp_destroyEndpoint h.sound hanswers e (h.formed.size e)) ?_ fun _ _ hw => hw.1 ▸ h
    rintro - w' ⟨r, -, hg⟩
    exact h.closed hg
  | destroyService s =>
    refine wp_step (wp_destroyService h.formed hanswers s) ?_ fun _ _ (hf : False) => hf.elim
    exact fun _ w' hg => h.withoutService hg
  | event call =>
    refine wp_bind.mpr ?_
    rw [wp_attempt, wp_onEvents]
    exact wp_mono (wp_eventCall h.sound.events call) (fun _ _ he => h.withEvents he.1) fun _ _ he => h.withEvents he.1

namespace IpcSession

lemma refines_step {s : IpcSession} (h : Refines s.world s.channels) (call : IpcCall) (answers : List Bool)
    (hframes : DistinctFrames s.world call) (hanswers : Unrefused answers call) :
    Refines (s.step call answers).world (s.step call answers).channels := by
  have hev := h.sound.events
  have h' : Refines { s.world with events := { s.world.events with heap := answers } } s.channels :=
    h.withEvents ⟨hev.events, hev.sets, hev.seed⟩
  have hframes' : DistinctFrames { s.world with events := { s.world.events with heap := answers } } call := by
    cases call <;> exact hframes
  have hwp := refines_run h' call hframes' hanswers
  unfold step
  rcases hrun : call.run { s.world with events := { s.world.events with heap := answers } } with ⟨err | reply, w'⟩
  · have herr := wp_error hwp hrun
    exact herr
  · have hok := wp_ok hwp hrun
    exact hok

lemma refines_of_reached {s : IpcSession}
    (h : Reached (fun w call answers => DistinctFrames w call ∧ Unrefused answers call) s) : Refines s.world s.channels := by
  induction h with
  | start generation eventGeneration budget memory => exact refines_start generation eventGeneration budget memory
  | step _ call answers hcall ih => exact refines_step ih call answers hcall.1 hcall.2

/-- **Endpoints are guarded channels.**  In a session in which endpoints are given distinct frames and the allocator
refuses nothing to a call that destroys, the messages delivered on a channel are a prefix of those accepted, and at most
as many are outstanding as it has room for; `send` reports `Full` exactly when that many are; nobody sends or receives
without the grant for that end of a live channel; and the committed messages are those of the live endpoints, within the
budget. -/
theorem endpoints_are_guarded_channels {s : IpcSession}
    (h : Reached (fun w call answers => DistinctFrames w call ∧ Unrefused answers call) s) : s.Faithful := by
  have hr := refines_of_reached h
  refine ⟨fun e => ?_, fun e ch hch => ?_, fun e ch hch => ?_, fun caller c bytes w' hrun => ?_, fun caller c bytes => ?_,
    fun caller c length m w' hrun => ?_, hr.committed, hr.budget⟩
  · rcases hend : s.world.endpoint? e with _ | r
    · rw [hr.absent e hend]
      rfl
    · obtain ⟨ch, hch, hcar⟩ := hr.present e r hend
      rw [hch, map_some, map_some, hcar.producer, hcar.consumer, hcar.messageBytes, hcar.capacity]
  · obtain ⟨r, -, hcar⟩ := hr.of_channel hch
    exact hcar.isPrefix
  · obtain ⟨r, -, hcar⟩ := hr.of_channel hch
    rw [hcar.outstanding, ← hcar.capacity]
    exact hcar.le
  · obtain ⟨e, r, hopen, -⟩ := wp_ok (wp_send hr.sound caller c bytes) hrun
    obtain ⟨hgrant, hend, -, -, ch, hch, hcar⟩ := hr.of_opened hopen
    exact ⟨e, ch, hgrant, hch, hcar.producer.symm.trans hend⟩
  · exact hr.send_full caller c bytes
  · obtain ⟨e, r, hopen, hne, rfl, -⟩ := wp_ok (wp_receive hr.sound caller c length) hrun
    obtain ⟨hgrant, hend, hrec, -, ch, hch, hcar⟩ := hr.of_opened hopen
    obtain ⟨m, rest, hcell, hacc, -⟩ := hr.dequeued hrec hcar hne
    refine ⟨e, ch, hgrant, hch, hcar.consumer.symm.trans hend, rest, ?_⟩
    rw [hcell, hacc, append_assoc]
    rfl

/-- One endpoint for one message in a frame. -/
def frameRequest : EndpointRequest :=
  { producer := ⟨2 ^ 32 + 4⟩, consumer := ⟨2 ^ 32 + 5⟩, contractId := 7, messageBytes := 2, queueCapacity := 1,
    serviceEpoch := 1 }

/-- The session in which that endpoint was made in the frame at `4096`. -/
def framed : IpcSession := (start 1 1 4 fun _ => []).step (.createEndpointWithFrames frameRequest [⟨4096⟩]) []

lemma reached_framed {P : IpcWorld → IpcCall → List Bool → Prop}
    (hP : P (.start 1 1 4 fun _ => []) (.createEndpointWithFrames frameRequest [⟨4096⟩]) []) : Reached P framed :=
  (Reached.start 1 1 4 fun _ => []).step _ [] hP

lemma distinctFrames_framed : DistinctFrames (.start 1 1 4 fun _ => []) (.createEndpointWithFrames frameRequest [⟨4096⟩]) :=
  ⟨by decide, nofun⟩

/-- The reservation is refused to `destroy_endpoint`: the endpoint lives on, and its message is no longer committed. -/
theorem refused_destroy_forgets_a_live_endpoint :
    ∃ s, Reached (fun w call _ => DistinctFrames w call) s ∧ ¬ s.Faithful := by
  refine ⟨framed.step (.destroyEndpoint ⟨2 ^ 32⟩) [false],
    (reached_framed distinctFrames_framed).step _ [false] trivial, fun h => ?_⟩
  have hcommitted : (framed.step (.destroyEndpoint ⟨2 ^ 32⟩) [false]).world.ipc.queueCommittedMessages = 0 := by
    decide +kernel
  have hlive : (framed.step (.destroyEndpoint ⟨2 ^ 32⟩) [false]).world.capacities = 1 := by decide +kernel
  have hsum := h.committed
  omega

/-- A message through that endpoint. -/
theorem endpoints_are_guarded_channels_framed :
    ∃ s, Reached (fun w call answers => DistinctFrames w call ∧ Unrefused answers call) s ∧ s.Faithful ∧
      (s.channels.channel ⟨2 ^ 32⟩).map (·.accepted) = some [[1, 2]] := by
  have h1 := (reached_framed ⟨distinctFrames_framed, trivial⟩ :
    Reached (fun w call answers => DistinctFrames w call ∧ Unrefused answers call) framed)
  have h2 := h1.step (.grant ⟨2 ^ 32 + 4⟩ ⟨2 ^ 32⟩ .send) [] ⟨trivial, trivial⟩
  have h3 := h2.step (.send ⟨2 ^ 32 + 4⟩ ⟨2 ^ 33⟩ [1, 2]) [] ⟨trivial, trivial⟩
  exact ⟨_, h3, endpoints_are_guarded_channels h3, by decide +kernel⟩

end IpcSession

end LogOS.Kernel
