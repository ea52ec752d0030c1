import LogOS.User.Changes
import LogOS.User.Snapshot

/-!
# The image of the user service

The loop around the user service: a request that changed the catalog is answered with `Ok` only after the catalog was saved, one
chunk after the other.  The catalog in memory keeps the change also where the save fails.  Where storage accepts every chunk, a
request that is answered with another status has changed nothing that lasts.
-/

namespace LogOS.User

open Lib Op List

def userStorageChunkBytes : ℕ := 224

/-- The loop of `save`; `accepted offset` says whether storage answers `Ok` to the chunk at `offset`. -/
def saveLoop (accepted : ℕ → Bool) (total offset : ℕ) : Bool :=
  if offset < total then
    if accepted offset then saveLoop accepted total (offset + min (total - offset) userStorageChunkBytes) else false
  else true
  termination_by total - offset
  decreasing_by
    simp only [userStorageChunkBytes]
    omega

def save (accepted : ℕ → Bool) (snapshot : List UInt8) : Bool :=
  if snapshot.isEmpty ∨ snapshot.length > userSnapshotBytes then false else saveLoop accepted snapshot.length 0

def persistCatalog (accepted : ℕ → Bool) (c : UserCatalog) : Bool := save accepted c.encodeSnapshot

inductive AtriumSettingsOperation where
  | load | save
  deriving DecidableEq, Repr

inductive AtriumSettingsStatus where
  | ok | invalid
  deriving DecidableEq, Repr

structure AtriumSettingsRequest where
  operation : AtriumSettingsOperation
  reserved : ℕ
  requestId : ℕ
  data : Bytes atriumSettingsRecordBytes
  deriving DecidableEq

def AtriumSettingsRequest.isValid (request : AtriumSettingsRequest) : Bool := request.requestId != 0 && request.reserved == 0

structure AtriumSettingsResponse where
  operation : AtriumSettingsOperation
  status : AtriumSettingsStatus
  requestId : ℕ
  data : Bytes atriumSettingsRecordBytes
  deriving DecidableEq

def AtriumSettingsResponse.new (request : AtriumSettingsRequest) (status : AtriumSettingsStatus) : AtriumSettingsResponse :=
  ⟨request.operation, status, request.requestId, Bytes.zeros _⟩

def AtriumSettingsResponse.withData (request : AtriumSettingsRequest) (status : AtriumSettingsStatus)
    (data : Bytes atriumSettingsRecordBytes) : AtriumSettingsResponse :=
  ⟨request.operation, status, request.requestId, data⟩

def handleAtriumSettings (accepted : ℕ → Bool) (c : UserCatalog) (request : AtriumSettingsRequest) :
    AtriumSettingsResponse × UserCatalog :=
  if request.isValid = false then (.new request .invalid, c)
  else
    match request.operation with
    | .load => (.withData request .ok c.atriumSettings, c)
    | .save =>
      let c := { c with atriumSettings := request.data }
      if persistCatalog accepted c then (.new request .ok, c) else (.new request .invalid, c)

section Requests

variable (hash : PasswordHash) (fill : Except UserError (Bytes userArgon2SaltBytes))

/-- The answer to a user request. -/
def handleUserRequest (accepted : ℕ → Bool) (c : UserCatalog) (request : UserRequest) : UserResponse × UserCatalog :=
  match handle hash fill c request with
  | (response, c) =>
    if response.status = .ok ∧ durable response.operation = true ∧ persistCatalog accepted c = false then
      ({ response with status := .invalid }, c)
    else (response, c)

end Requests

/-! ## The save -/

lemma length_nameField {room : ℕ} {name : List UInt8} (h : validName room name = true) : (nameField room name).length = room := by
  have hroom : name.length ≤ room := by
    simp only [validName, Bool.and_eq_true, decide_eq_true_eq] at h
    exact h.1.2
  rw [nameField, length_append, length_replicate]
  omega

lemma length_encodeUser (user : UserRecord) : (encodeUser user).length = encodedUserBytes := by
  have hroles : (user.roles.toList.flatMap fun role => leBytes 8 role.value ++ leBytes 4 role.generation).length = 96 := by
    rw [length_flatMap_const fun role _ => by rw [length_append, length_leBytes, length_leBytes], Vector.length_toList]
    rfl
  simp only [encodeUser, length_append, length_nameField user.name.valid,
    Vector.length_toList, hroles]
  rfl

lemma length_encodeTemplate (template : Option CapabilityTemplate) : (encodeTemplate template).length = 14 := by
  simp [encodeTemplate, length_leBytes]

lemma length_encodeRole (role : RoleRecord) : (encodeRole role).length = encodedRoleBytes := by
  simp only [encodeRole, length_append, length_nameField role.name.valid,
    length_flatMap_const fun template _ => length_encodeTemplate template, role.templates.length_eq]
  rfl

lemma length_encodeSlot {α : Type} {size : ℕ} {encode : α → List UInt8} (h : ∀ a, (encode a).length = size)
    (slot : Option α) : (encodeSlot size encode slot).length = size + 1 := by
  cases slot with
  | some a => rw [encodeSlot, length_cons, h a]
  | none => rw [encodeSlot, length_cons, length_replicate]

lemma length_encodeSnapshot (c : UserCatalog) : c.encodeSnapshot.length = 9416 := by
  simp only [UserCatalog.encodeSnapshot, length_append, length_leBytes, length_singleton,
    length_flatMap_const fun slot _ => length_encodeSlot length_encodeUser slot,
    length_flatMap_const fun slot _ => length_encodeSlot length_encodeRole slot, c.users.length_eq, c.roles.length_eq,
    Vector.length_toList]
  rfl

lemma saveLoop_accepted {accepted : ℕ → Bool} (h : ∀ offset, accepted offset = true) (total offset : ℕ) :
    saveLoop accepted total offset = true := by
  fun_induction saveLoop accepted total offset with
  | case1 offset _ _ ih => exact ih
  | case2 offset _ hrefused => exact absurd (h offset) hrefused
  | case3 => rfl

lemma persistCatalog_accepted {accepted : ℕ → Bool} (h : ∀ offset, accepted offset = true) (c : UserCatalog) :
    persistCatalog accepted c = true := by
  have hlength := length_encodeSnapshot c
  have hfilled : c.encodeSnapshot.isEmpty = false := by
    rw [isEmpty_eq_false_iff, ← length_pos_iff, hlength]
    decide
  rw [persistCatalog, save, saveLoop_accepted h]
  rw [hfilled, hlength]
  decide

end LogOS.User
