import LogOS.Kernel.Services
import LogOS.Package.Manifest

/-!
# Listing the services

The requests of a manager that only look at the registry.  A listing goes from service to service with a cursor, which the
registry takes for the number of live services to skip, and for which it gives back the slot behind the one it reports.  The
two are the same only where no slot in front is vacant, and elsewhere a listing leaves services out.
-/

namespace LogOS.Kernel.Services

open Lib Abi SlotTable List

/-! ## Requests -/

inductive ManagerTargetKind where
  | service | program
  deriving DecidableEq, Repr

inductive ManagerState where
  | vacant | disabled | stopped | starting | running | stopping | failed | exited | faulted
  deriving DecidableEq, Repr

structure ManagerRequest where
  abiVersion : ℕ
  operation : ManagerOperation
  targetKind : ManagerTargetKind
  requestId : ℕ
  service : ServiceHandle
  cursor : ℕ
  programSlot : ℕ
  nameLen : ℕ
  reservedTail : Bytes 2
  programGeneration : ℕ
  name : Bytes 32

structure ServiceManagerRecord where
  service : ServiceHandle
  state : ManagerState
  restarts : ℕ
  nameLen : ℕ
  dependencies : ℕ
  reserved : Bytes 2
  programSlot : ℕ
  reservedProgram : Bytes 3
  programGeneration : ℕ
  name : Bytes 32

structure ManagerResponse where
  abiVersion : ℕ
  operation : ManagerOperation
  status : ManagerStatus
  requestId : ℕ
  cursor : ℕ
  record : ServiceManagerRecord

def managerAbiVersion : ℕ := 5

def ManagerRequest.new (operation : ManagerOperation) (requestId : ℕ) : ManagerRequest :=
  ⟨managerAbiVersion, operation, .service, requestId, ⟨0⟩, 0, 255, 0, .zeros 2, 0, .zeros 32⟩

def ServiceManagerRecord.empty : ServiceManagerRecord := ⟨⟨0⟩, .vacant, 0, 0, 0, .zeros 2, 255, .zeros 3, 0, .zeros 32⟩

def ManagerResponse.new (operation : ManagerOperation) (status : ManagerStatus) (requestId : ℕ) : ManagerResponse :=
  ⟨managerAbiVersion, operation, status, requestId, 0, .empty⟩

/-- `PackageTarget::program` checks a name as `PackageName::parse` does. -/
def serviceRequestShapeValid (request : ManagerRequest) : Bool :=
  request.abiVersion == managerAbiVersion && request.requestId != 0 && request.targetKind == .service &&
    request.reservedTail == .zeros 2 && decide (request.nameLen ≤ 32) &&
    (request.name.toList.drop request.nameLen).all (· == 0) &&
    match request.operation with
    | .list => request.service == ⟨0⟩ && request.programGeneration == 0 && request.programSlot == 255
    | .status | .start | .stop | .restart =>
      request.service.isValid && request.programSlot == 255 && request.programGeneration == 0 && request.cursor == 0
    | .register =>
      request.service == ⟨0⟩ && request.programSlot == 255 && request.programGeneration == 0 && request.cursor == 0 &&
        (Package.checkPackageName (request.name.toList.take request.nameLen)).toBool
    | _ => false

def ServiceState.managerState : ServiceState → ManagerState
  | .disabled => .disabled
  | .stopped => .stopped
  | .starting => .starting
  | .running => .running
  | .stopping => .stopping
  | .failed => .failed

/-- What a manager is told of a service. -/
def ServiceRecord.managerRecord (service : ServiceRecord) : ServiceManagerRecord :=
  let nameLen := min service.name.length 32
  ⟨service.handle, service.state.managerState, service.restarts, nameLen, min service.dependencies.length 65535, .zeros 2, 255,
    .zeros 3, 0, (Bytes.zeros 32).splice 0 (service.name.take nameLen)⟩

/-- The values of a table behind the indices of their slots, which count from `n`. -/
def live {α : Type} (t : SlotTable α) (n : ℕ) : List (ℕ × α) :=
  (t.zipIdx n).filterMap fun (slot, index) => slot.value.map (index, ·)

namespace RuntimeServiceRegistry

variable (r : RuntimeServiceRegistry)

def managerRecord (handle : ServiceHandle) : Except ServiceRegistryError ServiceManagerRecord :=
  (r.service handle).map ServiceRecord.managerRecord

/-- The slots of the live services. -/
def liveSlots : List ℕ := (live r.slots 0).map (·.1)

def nextManagerRecord (cursor : ℕ) : Option (ℕ × ServiceManagerRecord) :=
  (r.liveSlots.drop cursor).findSome? fun index => do
    let slot ← r.slots[index]?
    let service ← slot.value
    let record ← (r.managerRecord service.handle).toOption
    return (index + 1, record)

def managerRequest (request : ManagerRequest) : ManagerResponse :=
  let response := ManagerResponse.new request.operation .malformed request.requestId
  if !serviceRequestShapeValid request then response
  else
    match request.operation with
    | .list =>
      match r.nextManagerRecord request.cursor with
      | none => { response with status := .ok, cursor := 2 ^ 64 - 1 }
      | some (next, record) => { response with status := .ok, cursor := next, record := record }
    | .status =>
      match r.managerRecord request.service with
      | .error _ => { response with status := .stale }
      | .ok record => { response with status := .ok, record := record }
    | _ => { response with status := .unsupported }

/-- The records that a manager is told of from a cursor on, if it reaches the end with the given number of requests. -/
def listing (request : ManagerRequest) : ℕ → ℕ → Option (List ServiceManagerRecord)
  | 0, _ => none
  | requests + 1, cursor =>
    let response := r.managerRequest { request with cursor := cursor }
    if response.cursor = 2 ^ 64 - 1 then some []
    else (listing request requests response.cursor).map (response.record :: ·)

end RuntimeServiceRegistry

/-! ## The live services -/

section Live

variable {α : Type} {t : SlotTable α} {i : ℕ} {a : α}

lemma live_snd (t : SlotTable α) : (live t 0).map (·.2) = t.values := by
  rw [live, map_filterMap, values]
  conv_rhs => rw [← zipIdx_map_fst 0 t, filterMap_map]
  simp [Function.comp_def]

lemma lookup_of_live (h : (i, a) ∈ live t 0) : ∃ g, t.lookup i g = some a := by
  obtain ⟨⟨⟨g, v⟩, j⟩, hmem, hv⟩ := mem_filterMap.mp h
  obtain ⟨b, rfl, hb⟩ := Option.map_eq_some_iff.mp hv
  cases hb
  exact ⟨g, lookup_eq_some_iff.mpr (mem_zipIdx_iff_getElem?.mp hmem)⟩

/-- A live service is not in front of the slot of its number. -/
theorem le_of_live : ∀ (t : SlotTable α) (n k : ℕ), (live t n)[k]? = some (i, a) → n + k ≤ i
  | [], n, k, h => by cases h
  | ⟨g, none⟩ :: t, n, k, h => by
    have := le_of_live t (n + 1) k h
    omega
  | ⟨g, some b⟩ :: t, n, 0, h => by
    cases h
    exact le_refl _
  | ⟨g, some b⟩ :: t, n, k + 1, h => by
    have := le_of_live t (n + 1) k h
    omega

end Live

/-! ## Listings -/

open RuntimeServiceRegistry

variable {r : RuntimeServiceRegistry} {request : ManagerRequest} {cursor : ℕ}

/-- Every live service but the last is in the slot of its number: no slot in front of it is vacant. -/
def FillsFront (r : RuntimeServiceRegistry) : Prop := r.liveSlots.dropLast = List.range (r.liveSlots.length - 1)

instance (r : RuntimeServiceRegistry) : Decidable (FillsFront r) := inferInstanceAs (Decidable (_ = _))

lemma FillsFront.slot_eq (h : FillsFront r) {i k : ℕ} {service : ServiceRecord} (hk : (live r.slots 0)[k]? = some (i, service))
    (hlast : k + 1 < (live r.slots 0).length) : i = k := by
  have hlen : k < r.liveSlots.length - 1 := by
    rw [liveSlots, length_map]
    omega
  have hget : r.liveSlots.dropLast[k]? = some i := by
    rw [getElem?_dropLast, if_pos hlen, liveSlots, getElem?_map, hk]
    rfl
  rw [h, getElem?_range hlen] at hget
  exact (Option.some.inj hget).symm

lemma nextManagerRecord_cons (ht : Tied r) {i : ℕ} {service : ServiceRecord} {rest : List (ℕ × ServiceRecord)}
    (h : (live r.slots 0).drop cursor = (i, service) :: rest) :
    r.nextManagerRecord cursor = some (i + 1, service.managerRecord) := by
  obtain ⟨g, hg⟩ := lookup_of_live (mem_of_mem_drop (h ▸ mem_cons_self))
  have hservice := service_eq_ok_iff.mpr (ht.mem_values_iff.mp (mem_values_iff.mpr ⟨i, g, hg⟩))
  rw [nextManagerRecord, liveSlots, ← map_drop, h, map_cons, findSome?_cons, lookup_eq_some_iff.mp hg]
  simp [managerRecord, hservice, Except.map, Except.toOption]

lemma managerRequest_list (hlist : request.operation = .list) (hvalid : serviceRequestShapeValid request = true) (cursor : ℕ) :
    (r.managerRequest { request with cursor := cursor }).cursor = ((r.nextManagerRecord cursor).map (·.1)).getD (2 ^ 64 - 1) ∧
      (r.managerRequest { request with cursor := cursor }).record = ((r.nextManagerRecord cursor).map (·.2)).getD .empty := by
  have hshape : serviceRequestShapeValid { request with cursor := cursor } = true := by
    unfold serviceRequestShapeValid at *
    rw [hlist] at hvalid ⊢
    exact hvalid
  unfold managerRequest
  rw [hshape]
  rcases hnext : r.nextManagerRecord cursor with _ | ⟨next, record⟩ <;> simp only [hlist] <;> exact ⟨rfl, rfl⟩

/-- **The requests of a listing**, from any cursor on. -/
theorem listing_eq (ht : Tied r) (hfront : FillsFront r) (hlist : request.operation = .list)
    (hvalid : serviceRequestShapeValid request = true) : ∀ requests cursor, (live r.slots 0).length ≤ requests + cursor →
    r.listing request (requests + 1) cursor = some (((live r.slots 0).drop cursor).map fun entry => entry.2.managerRecord) := by
  intro requests cursor hlen
  obtain ⟨hcursor, hrecord⟩ := managerRequest_list hlist hvalid cursor
  rw [listing, hcursor, hrecord]
  rcases hd : (live r.slots 0).drop cursor with _ | ⟨⟨i, service⟩, rest⟩
  · rw [nextManagerRecord, liveSlots, ← map_drop, hd]
    rfl
  have hrest := congrArg length hd
  rw [length_drop, length_cons] at hrest
  have hget : (live r.slots 0)[cursor]? = some (i, service) := by
    rw [← add_zero cursor, ← getElem?_drop, hd]
    rfl
  have hle := le_of_live _ _ _ hget
  -- the cursor of the answer skips the service that it reports, and no other
  have hnext : (live r.slots 0).drop (i + 1) = rest := by
    rcases Nat.eq_zero_or_pos rest.length with h0 | hpos
    · rw [length_eq_zero_iff.mp h0, drop_eq_nil_iff]
      omega
    · rw [hfront.slot_eq hget (by omega), ← drop_drop, hd]
      rfl
  have hslot : i < 2 ^ 32 := by
    obtain ⟨g, hg⟩ := lookup_of_live (mem_of_getElem? hget)
    exact (ht.sound.of_lookup hg).1
  cases requests with
  | zero => omega
  | succ requests =>
    rw [nextManagerRecord_cons ht hd, Option.map_some, Option.getD_some, if_neg (by omega),
      listing_eq ht hfront hlist hvalid requests (i + 1) (by omega), hnext]
    rfl

/-- Registrations and removals. -/
def RegistersOrRemoves (_ : RuntimeServiceRegistry) : ServiceCall → Prop
  | .registerWithQuota .. | .registerFilesystemPackage .. | .remove _ => True
  | _ => False

lemma Reached.tied_of_registers (h : Reached RegistersOrRemoves r) : Tied r := by
  induction h with
  | start generation => exact tied_newWithGeneration generation
  | call heap c _ hc ih =>
    refine tied_run (ih.heap heap) ?_
    cases c <;> trivial

end LogOS.Kernel.Services
