import LogOS.Kernel.EventSpec

/-!
# The registry of services

Service records in a table of slots, with the handles of the services each one depends on.  A dependency is a handle, so it
is only as good as the generation it carries: `remove` refuses a service that others depend on, while `replace_generation`
gives a service a new handle and leaves the lists of its dependents as they are.  Where it is used only on services that
nobody depends on, every dependency of a registered service leads to a registered service, in every state the registry can
reach.
-/

namespace LogOS.Kernel.Services

open Lib Abi Op SlotTable List Option

/-! ## State -/

inductive ServiceState where
  | disabled | stopped | starting | running | stopping | failed
  deriving DecidableEq, Repr

inductive ServiceImageSource where
  | builtin | filesystemPackage
  deriving DecidableEq, Repr

structure ServiceRecord where
  handle : ServiceHandle
  name : List UInt8
  image : List UInt8
  dependencies : List ServiceHandle
  state : ServiceState
  epoch : ℕ
  restarts : ℕ
  heapQuotaPages : ℕ
  imageSource : ServiceImageSource
  deriving DecidableEq, Repr

inductive ServiceRegistryError where
  | stale | invalidName | invalidImage | invalidDependency | dependencyCycle | capacity | runningDependents
  deriving DecidableEq, Repr

inductive ManagerOperation where
  | list | status | start | stop | restart | programStart | programStatus | programStop | register
  deriving DecidableEq, Repr

inductive ManagerStatus where
  | ok | accepted | malformed | unauthorized | notFound | stale | invalidState | dependency | busy | capacity | unsupported
  deriving DecidableEq, Repr

inductive RuntimeLifecycleAction where
  | start (handle : ServiceHandle)
  | stop (handle : ServiceHandle)
  | restart (members : List ServiceHandle)
  deriving DecidableEq, Repr

/-- The registry, and the answers the allocator will give to the reservations to come. -/
structure RuntimeServiceRegistry where
  slots : SlotTable ServiceRecord
  generationSeed : ℕ
  heap : List Bool

def maxServiceNameBytes : ℕ := 16

def RuntimeServiceRegistry.newWithGeneration (generation : UInt32) : RuntimeServiceRegistry := ⟨[], max generation.toNat 1, []⟩

def nextEpoch (current : ℕ) : ℕ := max ((current + 1) % 2 ^ 64) 1

namespace RuntimeServiceRegistry

variable (r : RuntimeServiceRegistry)

def service (handle : ServiceHandle) : Except ServiceRegistryError ServiceRecord :=
  match resolve r.slots handle with
  | some record => .ok record
  | none => .error .stale

/-- Some registered service satisfies `p`. -/
def anyService (p : ServiceRecord → Bool) : Bool := r.slots.values.any p

/-- A record put in a free slot. -/
def put (index : ℕ) (record : ServiceRecord) : RuntimeServiceRegistry := { r with slots := r.slots.store index record }

/-- The record behind a handle changed by `f`. -/
def change (handle : ServiceHandle) (f : ServiceRecord → ServiceRecord) : RuntimeServiceRegistry :=
  { r with slots := r.slots.update handle.index f }

/-- The slot of a handle in another generation, with its record changed by `f`. -/
def renew (handle : ServiceHandle) (generation : ℕ) (f : ServiceRecord → ServiceRecord) : RuntimeServiceRegistry :=
  { r with slots := List.modify r.slots handle.index fun slot => ⟨generation, slot.value.map f⟩ }

end RuntimeServiceRegistry

/-! ## Registration -/

abbrev RegistryOp := Op RuntimeServiceRegistry ServiceRegistryError

/-- `try_reserve`: the allocator may refuse at any time, and never grants what is not possible. -/
def tryReserve (possible : Bool) : RegistryOp Unit := do
  let r ← Op.get
  Op.modify fun r => { r with heap := r.heap.tail }
  Op.guard (r.heap.headD true && possible) .capacity

def serviceMut (handle : ServiceHandle) (f : ServiceRecord → ServiceRecord) : RegistryOp Unit := do
  let r ← Op.get
  let _ ← Op.lift (r.service handle)
  Op.modify fun r => r.change handle f

/-- The loop that checks a list of dependencies. -/
def checkDependencies (dependencies : List ServiceHandle) : RegistryOp Unit := do
  let r ← Op.get
  Op.guard (dependencies.all fun dependency => (resolve r.slots dependency).isSome) .invalidDependency

/-- A free slot; a table of `2 ^ 32` slots, which would not fit the index of a handle, is more than the allocator grants. -/
def allocateSlot : RegistryOp ℕ := do
  let r ← Op.get
  match r.slots.firstFree with
  | some index => return index
  | none =>
    tryReserve (decide (r.slots.length < 2 ^ 32))
    Op.modify fun r => { r with slots := r.slots ++ [Slot.withGeneration r.generationSeed] }
    return r.slots.length

def registerWithSource (name image : List UInt8) (dependencies : List ServiceHandle) (heapQuotaPages : ℕ)
    (imageSource : ServiceImageSource) : RegistryOp ServiceHandle := do
  Op.guard (!name.isEmpty && decide (name.length ≤ maxServiceNameBytes)) .invalidName
  Op.guard (!image.isEmpty && heapQuotaPages != 0) .invalidImage
  checkDependencies dependencies
  let index ← allocateSlot
  let r ← Op.get
  let handle ← Op.orFail (Handle.new index (generationAt r.slots index)) .capacity
  tryReserve true
  tryReserve true
  tryReserve true
  Op.modify fun r =>
    r.put index ⟨handle, name, image, dependencies, .stopped, 1, 0, heapQuotaPages, imageSource⟩
  return handle

def registerWithQuota (name image : List UInt8) (dependencies : List ServiceHandle) (heapQuotaPages : ℕ) :
    RegistryOp ServiceHandle :=
  registerWithSource name image dependencies heapQuotaPages .builtin

def registerFilesystemPackage (name image : List UInt8) (dependencies : List ServiceHandle) (heapQuotaPages : ℕ) :
    RegistryOp ServiceHandle :=
  registerWithSource name image dependencies heapQuotaPages .filesystemPackage

def setDependencies (handle : ServiceHandle) (dependencies : List ServiceHandle) : RegistryOp Unit := do
  checkDependencies dependencies
  let r ← Op.get
  let _ ← Op.lift (r.service handle)
  tryReserve true
  Op.modify fun r => r.change handle fun service => { service with dependencies }

/-! ## Starting and stopping -/

namespace RuntimeServiceRegistry

/-- The services to start before and with `handle`, after those of `order`.  A service is visited once on the way from the
first one, so the depth of the recursion is at most the number of services. -/
def collectStartOrder (r : RuntimeServiceRegistry) : ℕ → ServiceHandle → List ServiceHandle → List ServiceHandle →
    Except ServiceRegistryError (List ServiceHandle)
  | 0, _, _, _ => .error .dependencyCycle
  | depth + 1, handle, visiting, order => do
    if visiting.contains handle then .error .dependencyCycle
    else
      let record ← r.service handle
      if record.state = .running ∨ order.contains handle then .ok order
      else
        let order ← record.dependencies.foldlM
          (fun order dependency => collectStartOrder r depth dependency (visiting ++ [handle]) order) order
        .ok (order ++ [handle])

end RuntimeServiceRegistry

def applyStartOrder (order : List ServiceHandle) : RegistryOp Unit :=
  Op.forEach (fun handle => serviceMut handle fun service => { service with state := .running }) order

def start (handle : ServiceHandle) : RegistryOp Unit := do
  let r ← Op.get
  let order ← Op.lift (r.collectStartOrder (r.slots.length + 1) handle [] [])
  applyStartOrder order

def disable (handle : ServiceHandle) : RegistryOp Unit := serviceMut handle fun service => { service with state := .disabled }

def stop (handle : ServiceHandle) : RegistryOp Unit := do
  let r ← Op.get
  let _ ← Op.lift (r.service handle)
  Op.guard (!r.anyService fun service => service.state == .running && service.dependencies.contains handle) .runningDependents
  Op.modify fun r => r.change handle fun service => { service with state := .stopped, epoch := nextEpoch service.epoch }

def fail (handle : ServiceHandle) : RegistryOp Unit := serviceMut handle fun service => { service with state := .failed }

/-- The change that a restart makes to the record. -/
def ServiceRecord.restarted (service : ServiceRecord) : ServiceRecord :=
  { service with epoch := nextEpoch service.epoch, state := .running, restarts := min (service.restarts + 1) 255 }

def restart (handle : ServiceHandle) : RegistryOp Unit := do
  let r ← Op.get
  let record ← Op.lift (r.service handle)
  let order ← Op.lift (record.dependencies.foldlM
    (fun order dependency => r.collectStartOrder (r.slots.length + 1) dependency [handle] order) [])
  applyStartOrder order
  serviceMut handle ServiceRecord.restarted

def recordRestart (handle : ServiceHandle) : RegistryOp Unit := serviceMut handle ServiceRecord.restarted

def remove (handle : ServiceHandle) : RegistryOp Unit := do
  let r ← Op.get
  let _ ← Op.lift (r.service handle)
  Op.guard (!r.anyService fun service => service.dependencies.contains handle) .runningDependents
  Op.modify fun r => { r with slots := r.slots.retire handle.index }

def replaceGeneration (handle : ServiceHandle) : RegistryOp ServiceHandle := do
  let r ← Op.get
  let record ← Op.lift (r.service handle)
  let generation := nextGeneration (generationAt r.slots handle.index)
  let replacement ← Op.orFail (Handle.new handle.index generation) .capacity
  Op.guard (record.state == .stopped) .capacity
  Op.modify fun r => r.renew handle generation fun service =>
    { service with handle := replacement, epoch := nextEpoch service.epoch, restarts := min (service.restarts + 1) 255 }
  return replacement

/-! ## Lifecycle requests -/

namespace RuntimeServiceRegistry

def lifecycleStatus (r : RuntimeServiceRegistry) (operation : ManagerOperation) (handle : ServiceHandle) : ManagerStatus :=
  match resolve r.slots handle with
  | none => .stale
  | some service =>
    match operation with
    | .start =>
      if service.state ≠ .stopped then
        if service.state = .starting ∨ service.state = .stopping then .busy else .invalidState
      else if service.dependencies.any fun dependency =>
          ((resolve r.slots dependency).map ServiceRecord.state) != some .running then .dependency
      else .ok
    | .stop =>
      if service.state ≠ .running then
        if service.state = .starting ∨ service.state = .stopping then .busy else .invalidState
      else if r.anyService fun dependent =>
          dependent.dependencies.contains handle && dependent.state != .stopped then .dependency
      else .ok
    | .restart =>
      if service.state = .running then .ok
      else if service.state = .starting ∨ service.state = .stopping then .busy
      else .invalidState
    | _ => .unsupported

/-- The loop of `restart_closure` that looks for a service none of whose dependencies is still to come. -/
def stopOrder (r : RuntimeServiceRegistry) : ℕ → List ServiceHandle → List ServiceHandle →
    Except ServiceRegistryError (List ServiceHandle)
  | 0, _, order => .ok order
  | left + 1, remaining, order =>
    match remaining.findIdx? fun candidate =>
      (resolve r.slots candidate).any fun service => !service.dependencies.any remaining.contains with
    | none => .error .dependencyCycle
    | some position =>
      match remaining[position]? with
      | none => .error .dependencyCycle
      | some found => stopOrder r left (swapRemove remaining position) (order ++ [found])
where
  /-- `Vec::swap_remove`. -/
  swapRemove (l : List ServiceHandle) (position : ℕ) : List ServiceHandle :=
    match l.getLast? with
    | none => []
    | some last => (l.set position last).dropLast

end RuntimeServiceRegistry

/-- One round over the records, which adds the running services that depend on an included one. -/
def closureRound : List ServiceRecord → List ServiceHandle → Bool → RegistryOp (List ServiceHandle × Bool)
  | [], included, changed => return (included, changed)
  | service :: rest, included, changed =>
    if service.state = .running ∧ ¬ included.contains service.handle ∧ service.dependencies.any included.contains then do
      tryReserve true
      closureRound rest (included ++ [service.handle]) true
    else closureRound rest included changed

/-- The rounds of `restart_closure`.  Every round but the last adds a service, so there are at most as many rounds as
services, and one more. -/
def closureRounds : ℕ → List ServiceHandle → RegistryOp (List ServiceHandle)
  | 0, included => return included
  | rounds + 1, included => do
    let r ← Op.get
    let next ← closureRound r.slots.values included false
    if next.2 then closureRounds rounds next.1 else return next.1

def restartClosure (handle : ServiceHandle) : RegistryOp (List ServiceHandle) := do
  let r ← Op.get
  let _ ← Op.lift (r.service handle)
  tryReserve true
  let included ← closureRounds (r.slots.length + 1) [handle]
  tryReserve true
  let order ← Op.lift (r.stopOrder included.length included [])
  return order.reverse

def beginLifecycle (operation : ManagerOperation) (handle : ServiceHandle) : RegistryOp ManagerStatus := do
  let r ← Op.get
  let status := r.lifecycleStatus operation handle
  if status ≠ .ok then return status
  else
    match operation with
    | .start => Op.modify fun r => r.change handle fun service => { service with state := .starting }
                return .accepted
    | .stop => Op.modify fun r => r.change handle fun service => { service with state := .stopping }
               return .accepted
    | .restart => Op.modify fun r => r.change handle fun service => { service with state := .stopping }
                  return .accepted
    | _ => return .unsupported

def beginLifecycleAction (operation : ManagerOperation) (handle : ServiceHandle) :
    Op RuntimeServiceRegistry ManagerStatus RuntimeLifecycleAction := do
  let r ← Op.get
  let status := r.lifecycleStatus operation handle
  if status ≠ .ok then Op.fail status
  else
    match operation with
    | .start =>
      Op.mapErr (fun _ => .stale) (serviceMut handle fun service => { service with state := .starting })
      return .start handle
    | .stop =>
      Op.mapErr (fun _ => .stale) (serviceMut handle fun service => { service with state := .stopping })
      return .stop handle
    | .restart =>
      let closure ← Op.mapErr (fun _ => .dependency) (restartClosure handle)
      Op.forEach (fun member => Op.mapErr (fun _ => ManagerStatus.stale)
        (serviceMut member fun service => { service with state := .stopping })) closure
      return .restart closure
    | _ => Op.fail .unsupported

def abortLifecycle (operation : ManagerOperation) (handle : ServiceHandle) : RegistryOp ManagerStatus := do
  let r ← Op.get
  match resolve r.slots handle with
  | none => return .stale
  | some service =>
    match operation with
    | .start =>
      if service.state ≠ .starting then return .invalidState
      else
        Op.modify fun r => r.change handle fun service => { service with state := .stopped }
        return .ok
    | .stop | .restart =>
      if service.state ≠ .stopping then return .invalidState
      else
        Op.modify fun r => r.change handle fun service => { service with state := .running }
        return .ok
    | _ => return .unsupported

/-! ## Dependencies that lead somewhere -/

/-- Every record knows its handle, and every dependency leads to a registered service. -/
structure Tied (r : RuntimeServiceRegistry) : Prop where
  sound : r.slots.Sound
  seed : r.generationSeed < 2 ^ 32
  handle : ∀ (h : ServiceHandle) (record : ServiceRecord), resolve r.slots h = some record → record.handle = h
  dependencies : ∀ (h : ServiceHandle) (record : ServiceRecord), resolve r.slots h = some record →
    ∀ d ∈ record.dependencies, (resolve r.slots d).isSome = true

/-- The operation keeps the dependencies tied, whether it returns or fails. -/
def Keeps {ε α : Type} (m : Op RuntimeServiceRegistry ε α) : Prop := ∀ r, Tied r → Tied (m r).2

section Rules

variable {ε ε' α β : Type}

variable {m : Op RuntimeServiceRegistry ε α}

lemma keeps_of_wp (h : ∀ r, Tied r → wp m (fun _ r' => Tied r') (fun _ r' => Tied r') r) : Keeps m := by
  intro r hr
  exact state_of_wp (h r hr)

lemma keeps_pure (a : α) : Keeps (pure a : Op RuntimeServiceRegistry ε α) := fun _ hr => hr

lemma keeps_fail (e : ε) : Keeps (Op.fail e : Op RuntimeServiceRegistry ε α) := fun _ hr => hr

lemma keeps_lift (x : Except ε α) : Keeps (Op.lift x : Op RuntimeServiceRegistry ε α) := fun _ hr => hr

lemma keeps_guard (p : Bool) (e : ε) : Keeps (Op.guard p e : Op RuntimeServiceRegistry ε Unit) := by
  unfold Op.guard
  split
  · exact fun _ hr => hr
  · exact keeps_fail e

lemma keeps_get : Keeps (Op.get : Op RuntimeServiceRegistry ε RuntimeServiceRegistry) := fun _ hr => hr

lemma keeps_bind {f : α → Op RuntimeServiceRegistry ε β} (hm : Keeps m) (hf : ∀ a, Keeps (f a)) : Keeps (m >>= f) :=
  related_bind (R := fun r r' => Tied r → Tied r') (fun h h' hr => h' (h hr)) hm hf

lemma keeps_mapErr (f : ε → ε') (hm : Keeps m) : Keeps (Op.mapErr f m) := by
  refine keeps_of_wp ?_
  intro r hr
  rw [wp_mapErr]
  exact wp_of_state (hm r hr)

lemma keeps_forEach {f : β → Op RuntimeServiceRegistry ε Unit} (hf : ∀ b, Keeps (f b)) (l : List β) :
    Keeps (Op.forEach f l) := by
  induction l with
  | nil => exact keeps_pure ()
  | cons b l ih => exact keeps_bind (hf b) fun _ => ih

end Rules

/-! ### Single changes -/

variable {record : ServiceRecord} {f : ServiceRecord → ServiceRecord}

variable {r : RuntimeServiceRegistry}

lemma Tied.heap (h : Tied r) (heap : List Bool) : Tied { r with heap := heap } :=
  ⟨h.sound, h.seed, h.handle, h.dependencies⟩

lemma Tied.mem_values_iff (h : Tied r) : record ∈ r.slots.values ↔ resolve r.slots record.handle = some record := by
  rw [SlotTable.mem_values_iff]
  constructor
  · rintro ⟨i, g, hl⟩
    obtain ⟨hi, hg, -⟩ := h.sound.of_lookup hl
    obtain ⟨k, -, hki, hkg⟩ := Handle.exists_new .service hi hg
    have hk : resolve r.slots k = some record := by
      rw [resolve, hki, hkg]
      exact hl
    rw [h.handle k record hk]
    exact hk
  · intro hr
    exact ⟨_, _, hr⟩

variable (handle : ServiceHandle)

lemma resolve_change (f : ServiceRecord → ServiceRecord) (h : ServiceHandle) :
    resolve (r.change handle f).slots h =
      if h.index = handle.index then (resolve r.slots h).map f else resolve r.slots h :=
  lookup_update handle.index f h.index h.generation

/-- A change of a record that keeps its handle and leaves dependencies that lead somewhere. -/
theorem Tied.change (h : Tied r) (handle : ServiceHandle) (hf : ∀ record, (f record).handle = record.handle)
    (hd : ∀ record, ∀ d ∈ (f record).dependencies, d ∈ record.dependencies ∨ (resolve r.slots d).isSome = true) :
    Tied (r.change handle f) := by
  have hsome : ∀ k : ServiceHandle, (resolve (r.change handle f).slots k).isSome = (resolve r.slots k).isSome := by
    intro k
    rw [resolve_change]
    split
    · exact isSome_map
    · rfl
  refine ⟨h.sound.update handle.index f, h.seed, ?_, ?_⟩
  · intro k record hk
    rw [resolve_change] at hk
    split at hk
    · obtain ⟨old, hold, rfl⟩ := map_eq_some_iff.mp hk
      rw [hf, h.handle k old hold]
    · exact h.handle k record hk
  · intro k record hk d hmem
    rw [hsome]
    rw [resolve_change] at hk
    split at hk
    · obtain ⟨old, hold, rfl⟩ := map_eq_some_iff.mp hk
      rcases hd old d hmem with hd | hd
      · exact h.dependencies k old hold d hd
      · exact hd
    · exact h.dependencies k record hk d hmem

lemma keeps_change
    (hf : ∀ record, (f record).handle = record.handle ∧ (f record).dependencies = record.dependencies) {ε : Type} :
    Keeps (Op.modify fun r => r.change handle f : Op RuntimeServiceRegistry ε Unit) := by
  intro r hr
  refine hr.change handle (fun record => (hf record).1) ?_
  intro record d hd
  rw [(hf record).2] at hd
  exact .inl hd

lemma keeps_tryReserve (possible : Bool) : Keeps (tryReserve possible) := by
  refine keeps_bind keeps_get fun r => keeps_bind ?_ fun _ => keeps_guard _ _
  intro r hr
  exact hr.heap _

lemma keeps_serviceMut (hf : ∀ record, (f record).handle = record.handle ∧ (f record).dependencies = record.dependencies) :
    Keeps (serviceMut handle f) :=
  keeps_bind keeps_get fun _ => keeps_bind (keeps_lift _) fun _ => keeps_change handle hf

/-! ### Operations that change states only -/

lemma keeps_applyStartOrder (order : List ServiceHandle) : Keeps (applyStartOrder order) :=
  keeps_forEach (fun handle => keeps_serviceMut handle fun _ => by simp) order

lemma keeps_stop : Keeps (stop handle) :=
  keeps_bind keeps_get fun _ => keeps_bind (keeps_lift _) fun _ => keeps_bind (keeps_guard _ _) fun _ =>
    keeps_change handle fun _ => by simp

lemma keeps_restart : Keeps (restart handle) :=
  keeps_bind keeps_get fun _ => keeps_bind (keeps_lift _) fun _ => keeps_bind (keeps_lift _) fun _ =>
    keeps_bind (keeps_applyStartOrder _) fun _ => keeps_serviceMut handle fun _ => ⟨rfl, rfl⟩

lemma keeps_closureRound (records : List ServiceRecord) (included : List ServiceHandle) (changed : Bool) :
    Keeps (closureRound records included changed) := by
  induction records generalizing included changed with
  | nil => exact keeps_pure _
  | cons record rest ih =>
    unfold closureRound
    split
    · exact keeps_bind (keeps_tryReserve true) fun _ => ih _ _
    · exact ih _ _

lemma keeps_closureRounds (rounds : ℕ) (included : List ServiceHandle) : Keeps (closureRounds rounds included) := by
  induction rounds generalizing included with
  | zero => exact keeps_pure _
  | succ rounds ih =>
    refine keeps_bind keeps_get fun r => keeps_bind (keeps_closureRound _ _ _) fun next => ?_
    split
    · exact ih _
    · exact keeps_pure _

lemma keeps_restartClosure : Keeps (restartClosure handle) :=
  keeps_bind keeps_get fun _ => keeps_bind (keeps_lift _) fun _ => keeps_bind (keeps_tryReserve true) fun _ =>
    keeps_bind (keeps_closureRounds _ _) fun _ => keeps_bind (keeps_tryReserve true) fun _ =>
      keeps_bind (keeps_lift _) fun _ => keeps_pure _

variable (operation : ManagerOperation)

lemma keeps_beginLifecycle (handle : ServiceHandle) : Keeps (beginLifecycle operation handle) := by
  refine keeps_bind keeps_get fun r => ?_
  dsimp only
  split
  · exact keeps_pure _
  · cases operation <;> first
      | exact keeps_pure _
      | exact keeps_bind (keeps_change handle fun _ => by simp) fun _ => keeps_pure _

lemma keeps_beginLifecycleAction (handle : ServiceHandle) : Keeps (beginLifecycleAction operation handle) := by
  refine keeps_bind keeps_get fun r => ?_
  dsimp only
  split
  · exact keeps_fail _
  cases operation with
  | start =>
    exact keeps_bind (keeps_mapErr _ (keeps_serviceMut handle fun _ => by simp)) fun _ => keeps_pure _
  | stop =>
    exact keeps_bind (keeps_mapErr _ (keeps_serviceMut handle fun _ => by simp)) fun _ => keeps_pure _
  | restart =>
    refine keeps_bind (keeps_mapErr _ (keeps_restartClosure handle)) fun closure => ?_
    refine keeps_bind (keeps_forEach (fun member => ?_) closure) fun _ => keeps_pure _
    exact keeps_mapErr _ (keeps_serviceMut member fun _ => by simp)
  | _ => exact keeps_fail _

lemma keeps_abortLifecycle (handle : ServiceHandle) : Keeps (abortLifecycle operation handle) := by
  refine keeps_bind keeps_get fun r => ?_
  split
  · exact keeps_pure _
  cases operation <;> first
    | exact keeps_pure _
    | (dsimp only
       split
       · exact keeps_pure _
       · exact keeps_bind (keeps_change handle fun _ => by simp) fun _ => keeps_pure _)

/-! ### Registration and removal -/

variable {handle : ServiceHandle}

lemma wp_tryReserve {possible : Bool} {Q : Unit → RuntimeServiceRegistry → Prop}
    {E : ServiceRegistryError → RuntimeServiceRegistry → Prop} (hQ : possible = true → ∀ heap, Q () { r with heap := heap })
    (hE : ∀ heap, E .capacity { r with heap := heap }) : wp (tryReserve possible) Q E r := by
  unfold tryReserve
  rw [wp_bind, wp_get, wp_bind, wp_modify, wp_guard]
  constructor
  · intro h
    exact hQ (Bool.and_eq_true_iff.mp h).2 _
  · intro _
    exact hE _

lemma Tied.of_roomy {r' : RuntimeServiceRegistry} {i : ℕ} (h : Tied r) (hroom : Roomy r.slots r'.slots i)
    (hseed : r'.generationSeed = r.generationSeed) : Tied r' := by
  have hsame : ∀ k : ServiceHandle, resolve r'.slots k = resolve r.slots k := fun k => hroom.lookup _ _
  refine ⟨hroom.sound h.sound, hseed ▸ h.seed, ?_, ?_⟩
  · intro k record hk
    exact h.handle k record (hsame k ▸ hk)
  · intro k record hk d hd
    rw [hsame d]
    exact h.dependencies k record (hsame k ▸ hk) d hd

lemma wp_allocateSlot (h : Tied r) :
    wp allocateSlot (fun i r' => Roomy r.slots r'.slots i ∧ Tied r') (fun _ r' => Tied r') r := by
  unfold allocateSlot
  rw [wp_bind, wp_get]
  split
  · rename_i i hi
    exact ⟨roomy_of_firstFree hi, h⟩
  rw [wp_bind]
  refine wp_tryReserve ?_ fun heap => h.heap heap
  intro hlen heap
  have hroom := roomy_append h.seed (of_decide_eq_true hlen)
  exact ⟨hroom, h.of_roomy hroom rfl⟩

/-- A service registered in a free slot, with dependencies that are registered. -/
theorem Tied.put (h : Tied r) (hfree : r.slots.FreeAt record.handle.index record.handle.generation)
    (hd : ∀ d ∈ record.dependencies, (resolve r.slots d).isSome = true) : Tied (r.put record.handle.index record) := by
  have hres : resolve (r.put record.handle.index record).slots = Function.update (resolve r.slots) record.handle (some record) :=
    resolve_store hfree record
  refine ⟨h.sound.store _ record, h.seed, ?_, ?_⟩
  · intro k other hk
    rcases eq_some_of_update hres hk with ⟨rfl, rfl⟩ | ⟨-, hk⟩
    · rfl
    · exact h.handle k other hk
  · intro k other hk d hmem
    rw [hres, Function.update_apply]
    split
    · rfl
    rcases eq_some_of_update hres hk with ⟨-, rfl⟩ | ⟨-, hk⟩
    · exact hd d hmem
    · exact h.dependencies k other hk d hmem

lemma keeps_registerWithSource (name image : List UInt8) (dependencies : List ServiceHandle) (quota : ℕ)
    (source : ServiceImageSource) : Keeps (registerWithSource name image dependencies quota source) := by
  refine keeps_bind (keeps_guard _ _) fun _ => keeps_bind (keeps_guard _ _) fun _ => keeps_of_wp ?_
  intro r h
  unfold checkDependencies
  rw [wp_bind, wp_bind, wp_get, wp_guard]
  refine ⟨?_, fun _ => h⟩
  intro hall
  have hd := all_eq_true.mp hall
  refine wp_seq (wp_allocateSlot h) ?_
  rintro index r1 ⟨hroom, h1⟩
  rw [wp_bind, wp_get, wp_bind, wp_orFail]
  refine ⟨?_, fun _ => h1⟩
  intro handle hnew
  rw [wp_bind]
  refine wp_tryReserve (fun _ heap => ?_) fun heap => h1.heap heap
  rw [wp_bind]
  refine wp_tryReserve (fun _ heap => ?_) fun heap => h1.heap heap
  rw [wp_bind]
  refine wp_tryReserve (fun _ heap => ?_) fun heap => h1.heap heap
  obtain ⟨-, hi, hg⟩ := (Handle.new_eq_some_iff (h1.sound.of_freeAt hroom.free).1).mp hnew
  have hfree : r1.slots.FreeAt handle.index handle.generation := by
    rw [hi, hg]
    exact hroom.free
  have hd1 : ∀ d ∈ dependencies, (resolve r1.slots d).isSome = true := by
    intro d hmem
    rw [show resolve r1.slots d = resolve r.slots d from hroom.lookup _ _]
    exact hd d hmem
  let record : ServiceRecord := ⟨handle, name, image, dependencies, .stopped, 1, 0, quota, source⟩
  have hput : Tied ({ r1 with heap := heap }.put record.handle.index record) := (h1.heap heap).put hfree hd1
  rw [← hi]
  exact hput

lemma keeps_setDependencies (handle : ServiceHandle) (dependencies : List ServiceHandle) :
    Keeps (setDependencies handle dependencies) := by
  refine keeps_of_wp ?_
  intro r h
  unfold setDependencies checkDependencies
  rw [wp_bind, wp_bind, wp_get, wp_guard]
  refine ⟨?_, fun _ => h⟩
  intro hall
  have hd := all_eq_true.mp hall
  rw [wp_bind, wp_get, wp_bind, wp_lift]
  refine ⟨fun _ _ => ?_, fun _ _ => h⟩
  rw [wp_bind]
  refine wp_tryReserve (fun _ heap => ?_) fun heap => h.heap heap
  exact (h.heap heap).change handle (fun _ => rfl) fun _ d hmem => .inr (hd d hmem)

/-- No registered service names `handle` among its dependencies. -/
def Unneeded (r : RuntimeServiceRegistry) (handle : ServiceHandle) : Prop :=
  ∀ record ∈ r.slots.values, handle ∉ record.dependencies

instance (r : RuntimeServiceRegistry) (handle : ServiceHandle) : Decidable (Unneeded r handle) :=
  inferInstanceAs (Decidable (∀ record ∈ r.slots.values, handle ∉ record.dependencies))

lemma Unneeded.not_mem {k : ServiceHandle} (hun : Unneeded r handle)
    (hk : resolve r.slots k = some record) : handle ∉ record.dependencies :=
  hun record (mem_values_iff.mpr ⟨_, _, hk⟩)

lemma Tied.retire (h : Tied r) (hr : resolve r.slots handle = some record) (hun : Unneeded r handle) :
    Tied { r with slots := r.slots.retire handle.index } := by
  have hres := fun k => (congrFun (resolve_retire hr) k).trans (Function.update_apply ..)
  refine ⟨h.sound.retire _, h.seed, ?_, ?_⟩
  · intro k other hk
    rw [hres] at hk
    split at hk
    · cases hk
    · exact h.handle k other hk
  · intro k other hk d hd
    rw [hres] at hk
    split at hk
    · cases hk
    · have hne : d ≠ handle := fun heq => hun.not_mem hk (heq ▸ hd)
      rw [hres, if_neg hne]
      exact h.dependencies k other hk d hd

lemma service_eq_ok_iff : r.service handle = .ok record ↔ resolve r.slots handle = some record := by
  unfold RuntimeServiceRegistry.service
  split <;> simp_all

lemma keeps_remove (handle : ServiceHandle) : Keeps (remove handle) := by
  refine keeps_of_wp ?_
  intro r h
  unfold remove
  rw [wp_bind, wp_get, wp_bind, wp_lift]
  refine ⟨?_, fun _ _ => h⟩
  intro record hrecord
  rw [wp_bind, wp_guard]
  refine ⟨?_, fun _ => h⟩
  intro hnone
  refine h.retire (service_eq_ok_iff.mp hrecord) ?_
  simpa [Unneeded, RuntimeServiceRegistry.anyService] using hnone

/-! ### A new generation -/

lemma resolve_renew {replacement : ServiceHandle}
    (hr : resolve r.slots handle = some record) (hi : replacement.index = handle.index) (f : ServiceRecord → ServiceRecord)
    (k : ServiceHandle) (other : ServiceRecord) :
    resolve (r.renew handle replacement.generation f).slots k = some other ↔
      (k = replacement ∧ other = f record) ∨ (k.index ≠ handle.index ∧ resolve r.slots k = some other) := by
  have hslot : r.slots[handle.index]? = some ⟨handle.generation, some record⟩ := lookup_eq_some_iff.mp hr
  unfold resolve RuntimeServiceRegistry.renew
  rw [lookup_eq_some_iff]
  by_cases hk : k.index = handle.index
  · rw [hk, getElem?_modify_self hslot, Handle.eq_iff, hk, hi]
    simp [eq_comm]
  rw [getElem?_modify_ne _ _ (Ne.symm hk), lookup_eq_some_iff]
  constructor
  · intro h
    exact .inr ⟨hk, h⟩
  · rintro (⟨rfl, -⟩ | ⟨-, h⟩)
    · exact absurd hi hk
    · exact h

/-- A new generation for a service that nobody depends on.  Every other service keeps its handle. -/
theorem Tied.renew (h : Tied r) {replacement : ServiceHandle}
    (hr : resolve r.slots handle = some record) (hun : Unneeded r handle) (hi : replacement.index = handle.index)
    (hg : 1 ≤ replacement.generation ∧ replacement.generation < 2 ^ 32)
    (hf : (f record).handle = replacement ∧ (f record).dependencies = record.dependencies) :
    Tied (r.renew handle replacement.generation f) := by
  have hkeep : ∀ d : ServiceHandle, d ≠ handle → (resolve r.slots d).isSome = true →
      (resolve (r.renew handle replacement.generation f).slots d).isSome = true := by
    intro d hne hsome
    obtain ⟨target, htarget⟩ := isSome_iff_exists.mp hsome
    have hd : d.index ≠ handle.index := by
      intro heq
      have hl : r.slots.lookup handle.index d.generation = some target := heq ▸ htarget
      exact hne (Handle.eq_iff.mpr ⟨heq, generation_eq hr hl⟩)
    rw [isSome_iff_exists]
    exact ⟨target, (resolve_renew hr hi f d target).mpr (.inr ⟨hd, htarget⟩)⟩
  refine ⟨h.sound.modify _ fun _ _ _ => hg, h.seed, ?_, ?_⟩
  · intro k other hk
    rcases (resolve_renew hr hi f k other).mp hk with ⟨rfl, rfl⟩ | ⟨-, hk⟩
    · exact hf.1
    · exact h.handle k other hk
  · intro k other hk d hd
    rcases (resolve_renew hr hi f k other).mp hk with ⟨rfl, rfl⟩ | ⟨-, hk⟩
    · rw [hf.2] at hd
      exact hkeep d (fun heq => hun.not_mem hr (heq ▸ hd)) (h.dependencies handle record hr d hd)
    · exact hkeep d (fun heq => hun.not_mem hk (heq ▸ hd)) (h.dependencies k other hk d hd)

lemma tied_replaceGeneration (h : Tied r) (hun : Unneeded r handle) : Tied (replaceGeneration handle r).2 := by
  refine state_of_wp ?_
  unfold replaceGeneration
  rw [wp_bind, wp_get, wp_bind, wp_lift]
  refine ⟨?_, fun _ _ => h⟩
  intro record hrecord
  have hr := service_eq_ok_iff.mp hrecord
  rw [wp_bind, wp_orFail]
  refine ⟨?_, fun _ => h⟩
  intro replacement hnew
  refine wp_guard_seq (fun _ => h) fun _ => ?_
  obtain ⟨-, hi, hg⟩ := (Handle.new_eq_some_iff (h.sound.of_lookup hr).1).mp hnew
  rw [← hg]
  refine h.renew hr hun hi ?_ ⟨rfl, rfl⟩
  rw [hg]
  exact ⟨nextGeneration_pos _, nextGeneration_lt _⟩

/-! ## Runs of the registry -/

/-- A call of the registry that may change it. -/
inductive ServiceCall where
  | registerWithQuota (name image : List UInt8) (dependencies : List ServiceHandle) (heapQuotaPages : ℕ)
  | registerFilesystemPackage (name image : List UInt8) (dependencies : List ServiceHandle) (heapQuotaPages : ℕ)
  | setDependencies (handle : ServiceHandle) (dependencies : List ServiceHandle)
  | start (handle : ServiceHandle)
  | stop (handle : ServiceHandle)
  | fail (handle : ServiceHandle)
  | disable (handle : ServiceHandle)
  | restart (handle : ServiceHandle)
  | recordRestart (handle : ServiceHandle)
  | beginLifecycle (operation : ManagerOperation) (handle : ServiceHandle)
  | beginLifecycleAction (operation : ManagerOperation) (handle : ServiceHandle)
  | abortLifecycle (operation : ManagerOperation) (handle : ServiceHandle)
  | remove (handle : ServiceHandle)
  | replaceGeneration (handle : ServiceHandle)
  deriving DecidableEq

/-- The registry after a call, whether the call returned or failed. -/
def ServiceCall.run (r : RuntimeServiceRegistry) : ServiceCall → RuntimeServiceRegistry
  | .registerWithQuota name image dependencies quota => (Services.registerWithQuota name image dependencies quota r).2
  | .registerFilesystemPackage name image dependencies quota =>
    (Services.registerFilesystemPackage name image dependencies quota r).2
  | .setDependencies handle dependencies => (Services.setDependencies handle dependencies r).2
  | .start handle => (Services.start handle r).2
  | .stop handle => (Services.stop handle r).2
  | .fail handle => (Services.fail handle r).2
  | .disable handle => (Services.disable handle r).2
  | .restart handle => (Services.restart handle r).2
  | .recordRestart handle => (Services.recordRestart handle r).2
  | .beginLifecycle operation handle => (Services.beginLifecycle operation handle r).2
  | .beginLifecycleAction operation handle => (Services.beginLifecycleAction operation handle r).2
  | .abortLifecycle operation handle => (Services.abortLifecycle operation handle r).2
  | .remove handle => (Services.remove handle r).2
  | .replaceGeneration handle => (Services.replaceGeneration handle r).2

/-- The registry with the answers of the allocator to the reservations to come. -/
def RuntimeServiceRegistry.withHeap (r : RuntimeServiceRegistry) (heap : List Bool) : RuntimeServiceRegistry :=
  { r with heap }

/-- The registries that calls satisfying `allowed` lead to.  The allocator answers each call as it likes. -/
inductive Reached (allowed : RuntimeServiceRegistry → ServiceCall → Prop) : RuntimeServiceRegistry → Prop
  | start (generation : UInt32) : Reached allowed (.newWithGeneration generation)
  | call {r : RuntimeServiceRegistry} (heap : List Bool) (c : ServiceCall) :
    Reached allowed r → allowed r c → Reached allowed (c.run (r.withHeap heap))

/-- The call gives no new generation to a service that another one depends on. -/
def KeepsNeeded (r : RuntimeServiceRegistry) : ServiceCall → Prop
  | .replaceGeneration handle => Unneeded r handle
  | _ => True

instance (r : RuntimeServiceRegistry) (c : ServiceCall) : Decidable (KeepsNeeded r c) := by
  cases c <;> unfold KeepsNeeded <;> infer_instance

lemma tied_newWithGeneration (generation : UInt32) : Tied (.newWithGeneration generation) := by
  have hseed : max generation.toNat 1 < 2 ^ 32 := Nat.max_lt.mpr ⟨generation.toNat_lt, by decide⟩
  refine ⟨.nil, hseed, ?_, ?_⟩
  · exact nofun
  · exact nofun

lemma tied_run (h : Tied r) {c : ServiceCall} (hc : KeepsNeeded r c) : Tied (c.run r) := by
  cases c with
  | registerWithQuota name image dependencies quota => exact keeps_registerWithSource _ _ _ _ _ r h
  | registerFilesystemPackage name image dependencies quota => exact keeps_registerWithSource _ _ _ _ _ r h
  | setDependencies handle dependencies => exact keeps_setDependencies handle dependencies r h
  | start handle => exact keeps_bind keeps_get (fun _ => keeps_bind (keeps_lift _) keeps_applyStartOrder) r h
  | stop handle => exact keeps_stop handle r h
  | fail handle | disable handle => exact keeps_serviceMut handle (fun _ => by simp) r h
  | restart handle => exact keeps_restart handle r h
  | recordRestart handle => exact keeps_serviceMut handle (fun _ => by exact ⟨rfl, rfl⟩) r h
  | beginLifecycle operation handle => exact keeps_beginLifecycle operation handle r h
  | beginLifecycleAction operation handle => exact keeps_beginLifecycleAction operation handle r h
  | abortLifecycle operation handle => exact keeps_abortLifecycle operation handle r h
  | remove handle => exact keeps_remove handle r h
  | replaceGeneration handle => exact tied_replaceGeneration h hc

lemma Reached.tied (h : Reached KeepsNeeded r) : Tied r := by
  induction h with
  | start generation => exact tied_newWithGeneration generation
  | call heap c _ hc ih => exact tied_run (ih.heap heap) hc

/-! ## A service that others depend on -/

variable {d : ServiceHandle} {target : ServiceRecord}

section

variable (ht : resolve r.slots d = some target) (hr : record ∈ r.slots.values) (hd : d ∈ record.dependencies)
include ht hr hd

lemma remove_needed : (remove d r).1 = .error .runningDependents := by
  have hneeded : r.anyService (fun service => service.dependencies.contains d) = true :=
    any_eq_true.mpr ⟨record, hr, contains_iff_mem.mpr hd⟩
  simp only [remove, Op.get_bind]
  rw [Op.bind_of_ok (show Op.lift (r.service d) r = _ by rw [service_eq_ok_iff.mpr ht]; rfl), hneeded]
  rfl

lemma stop_needed (hrun : record.state = .running) : (stop d r).1 = .error .runningDependents := by
  have hneeded : r.anyService (fun service => service.state == .running && service.dependencies.contains d) = true := by
    refine any_eq_true.mpr ⟨record, hr, ?_⟩
    rw [hrun, contains_iff_mem.mpr hd]
    rfl
  simp only [stop, Op.get_bind]
  rw [Op.bind_of_ok (show Op.lift (r.service d) r = _ by rw [service_eq_ok_iff.mpr ht]; rfl), hneeded]
  rfl

lemma lifecycleStatus_needed (htarget : target.state = .running)
    (hstate : record.state ≠ .stopped) : r.lifecycleStatus .stop d = .dependency := by
  have hneeded : r.anyService (fun dependent => dependent.dependencies.contains d && dependent.state != .stopped) = true := by
    refine any_eq_true.mpr ⟨record, hr, ?_⟩
    rw [contains_iff_mem.mpr hd]
    exact bne_iff_ne.mpr hstate
  simp only [RuntimeServiceRegistry.lifecycleStatus, ht, htarget, hneeded]
  rfl

end

/-- **A dependency leads to a registered service.**  Wherever no call gave a new generation to a service that others depended
on, every dependency of a registered service is the handle of a registered service, and `remove`, `stop` and
`lifecycle_status` see the dependent. -/
theorem dependencies_never_dangle (h : Reached KeepsNeeded r) {record : ServiceRecord} (hr : record ∈ r.slots.values)
    {d : ServiceHandle} (hd : d ∈ record.dependencies) :
    ∃ target, resolve r.slots d = some target ∧ target.handle = d ∧
      (remove d r).1 = .error .runningDependents ∧
      (record.state = .running → (stop d r).1 = .error .runningDependents) ∧
      (target.state = .running → record.state ≠ .stopped → r.lifecycleStatus .stop d = .dependency) := by
  have htied := h.tied
  obtain ⟨target, ht⟩ := isSome_iff_exists.mp
    (htied.dependencies _ record (htied.mem_values_iff.mp hr) d hd)
  exact ⟨target, ht, htied.handle d target ht, remove_needed ht hr hd, stop_needed ht hr hd,
    lifecycleStatus_needed ht hr hd⟩

/-- A registry with a service `1` in its second generation and a service `2` that depends on it, both running. -/
theorem dependencies_never_dangle_second_generation :
    ∃ (r : RuntimeServiceRegistry) (record : ServiceRecord) (d : ServiceHandle),
      Reached KeepsNeeded r ∧ record ∈ r.slots.values ∧ d ∈ record.dependencies ∧ d.generation = 2 ∧
      record.state = .running ∧ (stop d r).1 = .error .runningDependents := by
  have h0 : Reached KeepsNeeded _ := .start 1
  have h1 := h0.call [] (.registerWithQuota [1] [1] [] 1) trivial
  have h2 := h1.call [] (.replaceGeneration ⟨2 ^ 32⟩) (by decide +kernel)
  have h3 := h2.call [] (.registerWithQuota [2] [2] [⟨2 * 2 ^ 32⟩] 1) trivial
  have h4 := h3.call [] (.start ⟨2 ^ 32 + 1⟩) trivial
  let record : ServiceRecord := ⟨⟨2 ^ 32 + 1⟩, [2], [2], [⟨2 * 2 ^ 32⟩], .running, 1, 0, 1, .builtin⟩
  refine ⟨_, record, ⟨2 * 2 ^ 32⟩, h4, by decide +kernel, mem_singleton_self _, by decide +kernel, rfl, ?_⟩
  obtain ⟨_, -, -, -, hstop, -⟩ :=
    dependencies_never_dangle h4 (show record ∈ _ by decide +kernel) (mem_singleton_self _)
  exact hstop rfl

/-- **A new generation leaves its dependents behind.**  Service `2` depends on service `1`, which gets a new generation: the
dependency leads nowhere, and the service is removed under its new handle. -/
theorem new_generation_leaves_dependents :
    ∃ (r : RuntimeServiceRegistry) (record : ServiceRecord) (d replacement : ServiceHandle),
      Reached (fun _ _ => True) r ∧ record ∈ r.slots.values ∧ d ∈ record.dependencies ∧ resolve r.slots d = none ∧
      (replacement.index = d.index ∧ (remove replacement r).1 = .ok ()) := by
  have h0 : Reached (fun _ _ => True) _ := .start 1
  have h1 := h0.call [] (.registerWithQuota [1] [1] [] 1) trivial
  have h2 := h1.call [] (.registerWithQuota [2] [2] [⟨2 ^ 32⟩] 1) trivial
  have h3 := h2.call [] (.replaceGeneration ⟨2 ^ 32⟩) trivial
  exact ⟨_, ⟨⟨2 ^ 32 + 1⟩, [2], [2], [⟨2 ^ 32⟩], .stopped, 1, 0, 1, .builtin⟩, ⟨2 ^ 32⟩, ⟨2 * 2 ^ 32⟩, h3,
    by decide +kernel, mem_singleton_self _, by decide +kernel, by decide +kernel, by decide +kernel⟩

end LogOS.Kernel.Services
