import LogOS.Lib.Bytes
import LogOS.Lib.Op
import LogOS.Lib.Slots

/-!
# The user service

Users, the roles they hold, and the sessions they log into.  A role is a list of templates, and a login turns the templates of
a user's roles into capabilities of the session; a capability can be derived from another one of the same session.  The hash
of a password is a parameter, and so is what the source of entropy answers to the one request it gets in a call.
-/

namespace LogOS.User

open Lib Op

/-! ## Identifiers -/

def userMaxUserNameBytes : ℕ := 32
def userMaxRoleNameBytes : ℕ := 32
def userMaxPasswordBytes : ℕ := 128
def userArgon2SaltBytes : ℕ := 16
def userArgon2OutputBytes : ℕ := 32
def atriumSettingsRecordBytes : ℕ := 16

def maxUsers : ℕ := 32
def maxRoles : ℕ := 16
def maxSessions : ℕ := 32
def maxCapabilitiesPerSession : ℕ := 16
def maxRoleGrants : ℕ := 8
def maxRoleTemplates : ℕ := 8
def argon2Version : ℕ := 1

inductive UserError where
  | invalidName | invalidPassword | alreadyClaimed | notClaimed | capacity | notFound | unauthorized | badCredentials | stale
  | revoked | corrupt | crypto | entropy | persistence
  deriving DecidableEq, Repr

structure UserId where
  value : ℕ
  generation : ℕ
  deriving DecidableEq, Repr

def UserId.empty : UserId := ⟨0, 0⟩
def UserId.new (value generation : ℕ) : Option UserId := if value = 0 ∨ generation = 0 then none else some ⟨value, generation⟩

structure RoleId where
  value : ℕ
  generation : ℕ
  deriving DecidableEq, Repr

def RoleId.empty : RoleId := ⟨0, 0⟩
def RoleId.new (value generation : ℕ) : Option RoleId := if value = 0 ∨ generation = 0 then none else some ⟨value, generation⟩
def RoleId.isValid (role : RoleId) : Bool := role.value != 0 && role.generation != 0

structure SessionHandle where
  slot : ℕ
  generation : ℕ
  deriving DecidableEq, Repr

def SessionHandle.empty : SessionHandle := ⟨2 ^ 32 - 1, 0⟩
def SessionHandle.new (slot generation : ℕ) : Option SessionHandle := if generation = 0 then none else some ⟨slot, generation⟩

structure NamespaceCapabilityHandle where
  slot : ℕ
  generation : ℕ
  deriving DecidableEq, Repr

def NamespaceCapabilityHandle.empty : NamespaceCapabilityHandle := ⟨2 ^ 32 - 1, 0⟩
def NamespaceCapabilityHandle.new (slot generation : ℕ) : Option NamespaceCapabilityHandle :=
  if generation = 0 then none else some ⟨slot, generation⟩

structure NamespaceRoot where
  object : ℕ
  generation : ℕ
  deriving DecidableEq, Repr

def NamespaceRoot.empty : NamespaceRoot := ⟨0, 0⟩
def NamespaceRoot.new (object generation : ℕ) : Option NamespaceRoot :=
  if object = 0 ∨ generation = 0 then none else some ⟨object, generation⟩
def NamespaceRoot.isValid (root : NamespaceRoot) : Bool := root.object != 0 && root.generation != 0

/-- The rights to a namespace, as bits. -/
structure NamespaceRights where
  bits : UInt8
  deriving DecidableEq, Repr

namespace NamespaceRights

def none : NamespaceRights := ⟨0⟩
def read : NamespaceRights := ⟨1⟩
def write : NamespaceRights := ⟨2⟩
def derive : NamespaceRights := ⟨4⟩
def valid : UInt8 := 7

def or (a b : NamespaceRights) : NamespaceRights := ⟨a.bits ||| b.bits⟩
def contains (a b : NamespaceRights) : Bool := a.bits &&& b.bits == b.bits
def isValid (a : NamespaceRights) : Bool := a.bits != 0 && a.bits &&& ~~~ valid == 0

end NamespaceRights

/-! ## Names and passwords -/

def nameByte (byte : UInt8) : Bool :=
  (97 ≤ byte && byte ≤ 122) || (48 ≤ byte && byte ≤ 57) || byte == 45 || byte == 95 || byte == 46

/-- A name of at most `room` bytes, all of them allowed ones. -/
def validName (room : ℕ) (input : List UInt8) : Bool :=
  !input.isEmpty && decide (input.length ≤ room) && input.all nameByte

structure UserName where
  bytes : List UInt8
  valid : validName userMaxUserNameBytes bytes = true
  deriving DecidableEq

def UserName.parse (input : List UInt8) : Except UserError UserName :=
  if h : validName userMaxUserNameBytes input = true then .ok ⟨input, h⟩ else .error .invalidName

structure RoleName where
  bytes : List UInt8
  valid : validName userMaxRoleNameBytes bytes = true
  deriving DecidableEq

def RoleName.parse (input : List UInt8) : Except UserError RoleName :=
  if h : validName userMaxRoleNameBytes input = true then .ok ⟨input, h⟩ else .error .invalidName

structure PasswordVerifier where
  version : ℕ
  salt : Bytes userArgon2SaltBytes
  output : Bytes userArgon2OutputBytes
  deriving DecidableEq

/-- The hash of a password with a salt. -/
abbrev PasswordHash := List UInt8 → Bytes userArgon2SaltBytes → Except UserError (Bytes userArgon2OutputBytes)

namespace PasswordVerifier

variable (hash : PasswordHash)

def create (password : List UInt8) (salt : Bytes userArgon2SaltBytes) : Except UserError PasswordVerifier :=
  if password.isEmpty ∨ password.length > userMaxPasswordBytes then .error .invalidPassword
  else do
    let output ← hash password salt
    return ⟨argon2Version, salt, output⟩

def verify (verifier : PasswordVerifier) (password : List UInt8) : Except UserError Unit :=
  if verifier.version ≠ argon2Version ∨ password.isEmpty ∨ password.length > userMaxPasswordBytes then .error .badCredentials
  else do
    let candidate ← create hash password verifier.salt
    if candidate.output = verifier.output then .ok () else .error .badCredentials

end PasswordVerifier

/-! ## Records -/

structure CapabilityTemplate where
  root : NamespaceRoot
  rights : NamespaceRights
  deriving DecidableEq, Repr

structure RoleRecord where
  id : RoleId
  name : RoleName
  templates : Slots maxRoleTemplates CapabilityTemplate
  templateCount : ℕ
  deriving DecidableEq

structure UserRecord where
  id : UserId
  name : UserName
  verifier : PasswordVerifier
  home : NamespaceRoot
  roles : Vector RoleId maxRoleGrants
  roleCount : ℕ
  nextLineage : ℕ
  admin : Bool
  deriving DecidableEq

structure CapabilityRecord where
  handle : NamespaceCapabilityHandle
  root : NamespaceRoot
  rights : NamespaceRights
  lineage : ℕ
  parentLineage : ℕ
  revoked : Bool
  deriving DecidableEq, Repr

structure SessionRecord where
  handle : SessionHandle
  user : UserId
  lineage : ℕ
  revoked : Bool
  capabilities : Slots maxCapabilitiesPerSession CapabilityRecord
  capabilityGenerations : Vector ℕ maxCapabilitiesPerSession
  deriving DecidableEq

structure UserCatalog where
  claimed : Bool
  nextUser : ℕ
  nextRole : ℕ
  nextLineage : ℕ
  users : Slots maxUsers UserRecord
  roles : Slots maxRoles RoleRecord
  sessions : Slots maxSessions SessionRecord
  sessionGenerations : Vector ℕ maxSessions
  atriumSettings : Bytes atriumSettingsRecordBytes
  deriving DecidableEq

def RoleRecord.held (role : RoleRecord) : List CapabilityTemplate :=
  (role.templates.entries.take role.templateCount).reduceOption

def UserRecord.held (user : UserRecord) : List RoleId := user.roles.toList.take user.roleCount

namespace UserCatalog

def new : UserCatalog :=
  ⟨false, 1, 1, 1, .empty _ _, .empty _ _, .empty _ _, Vector.replicate maxSessions 1,
    Bytes.zeros atriumSettingsRecordBytes⟩

variable (c : UserCatalog)

def defaultHomeRoot : NamespaceRoot := ⟨(0x1000 + c.nextUser) % 2 ^ 64, 1⟩

def findUser (name : UserName) : Option ℕ := c.users.firstWhere (Option.any fun user => user.name = name)

def userRef (user : UserId) : Except UserError UserRecord :=
  match c.users.values.find? fun record => record.id = user with
  | some record => .ok record
  | none => .error .notFound

def role? (role : RoleId) : Option RoleRecord := c.roles.values.find? fun record => record.id = role

def session (handle : SessionHandle) : Except UserError SessionRecord :=
  match c.sessions.get handle.slot with
  | none => .error .stale
  | some record =>
    if record.handle ≠ handle then .error .stale
    else if record.revoked then .error .revoked
    else .ok record

def isAdminSession (handle : SessionHandle) : Except UserError Bool := do
  let session ← c.session handle
  let user ← c.userRef session.user
  return user.admin

/-- The templates that a user's roles give at login. -/
def templatesOf (user : UserRecord) : List CapabilityTemplate :=
  user.held.flatMap fun id =>
    match c.role? id with
    | some role => role.held
    | none => []

def firstCapability (handle : SessionHandle) :
    Except UserError (NamespaceCapabilityHandle × NamespaceRoot × NamespaceRights) := do
  let record ← c.session handle
  match record.capabilities.values.head? with
  | none => .error .notFound
  | some capability =>
    if capability.revoked || record.revoked then .error .revoked
    else .ok (capability.handle, capability.root, capability.rights)

end UserCatalog

/-! ## Changes of the catalog -/

abbrev CatalogOp := Op UserCatalog UserError

/-- `user_mut`, used to change the record it finds. -/
def changeUser (user : UserId) (f : UserRecord → UserRecord) : CatalogOp Unit := do
  let c ← Op.get
  let _ ← Op.lift (c.userRef user)
  Op.modify fun c => { c with users := c.users.change (fun record => record.id = user) f }

/-- `session_mut`, used to change the record it finds. -/
def changeSession (handle : SessionHandle) (f : SessionRecord → SessionRecord) : CatalogOp Unit := do
  let c ← Op.get
  let record ← Op.lift (c.session handle)
  Op.modify fun c => { c with sessions := c.sessions.put handle.slot (some (f record)) }

def nextLineage : CatalogOp ℕ := do
  let c ← Op.get
  Op.modify fun c => { c with nextLineage := max ((c.nextLineage + 1) % 2 ^ 64) 1 }
  return c.nextLineage

variable (hash : PasswordHash) (fill : Except UserError (Bytes userArgon2SaltBytes))

def createRecord (name password : List UInt8) (home : NamespaceRoot) : CatalogOp UserId := do
  let name ← Op.lift (UserName.parse name)
  let c ← Op.get
  Op.guard (c.findUser name).isNone .capacity
  let slot ← Op.orFail c.users.firstFree .capacity
  let id ← Op.orFail (UserId.new c.nextUser 1) .corrupt
  Op.guard (decide (c.nextUser + 1 < 2 ^ 64)) .capacity
  let salt ← Op.lift fill
  let verifier ← Op.lift (PasswordVerifier.create hash password salt)
  let record : UserRecord := ⟨id, name, verifier, home, Vector.replicate maxRoleGrants .empty, 0, 1, false⟩
  Op.modify fun c => { c with nextUser := c.nextUser + 1, users := c.users.put slot (some record) }
  return id

/-- A new role in the first free slot. -/
def addRole (name : RoleName) (template : CapabilityTemplate) : CatalogOp RoleId := do
  let c ← Op.get
  let slot ← Op.orFail c.roles.firstFree .capacity
  let id ← Op.orFail (RoleId.new c.nextRole 1) .corrupt
  Op.guard (decide (c.nextRole + 1 < 2 ^ 64)) .capacity
  let record : RoleRecord := ⟨id, name, (Slots.empty _ _).put 0 (some template), 1⟩
  Op.modify fun c => { c with nextRole := c.nextRole + 1, roles := c.roles.put slot (some record) }
  return id

def ensureBuiltinRole (name : List UInt8) (template : CapabilityTemplate) : CatalogOp RoleId := do
  let name ← Op.lift (RoleName.parse name)
  let c ← Op.get
  match c.roles.values.find? fun role => role.name = name with
  | some role => return role.id
  | none => addRole name template

def assignRoleInner (user : UserId) (role : RoleId) : CatalogOp Unit := do
  let c ← Op.get
  let record ← Op.lift (c.userRef user)
  Op.guard (record.roleCount != maxRoleGrants) .capacity
  changeUser user fun record =>
    { record with roles := record.roles.setIfInBounds record.roleCount role, roleCount := record.roleCount + 1 }

def assignRole (user : UserId) (role : RoleId) : CatalogOp Unit := do
  let c ← Op.get
  Op.guard (c.roles.values.any fun record => record.id = role) .notFound
  assignRoleInner user role

/-- What `claim` and `create_user` put back when they fail. -/
def UserCatalog.restoring (previous c : UserCatalog) : UserCatalog :=
  { c with
    claimed := previous.claimed, nextUser := previous.nextUser, nextRole := previous.nextRole, users := previous.users,
    roles := previous.roles }

def systemAdminName : List UInt8 := "system-admin".toUTF8.data.toList
def userRoleName : List UInt8 := "user".toUTF8.data.toList

def adminTemplate (home : NamespaceRoot) : CapabilityTemplate := ⟨home, (NamespaceRights.read.or .write).or .derive⟩
def userTemplate : CapabilityTemplate := ⟨.empty, NamespaceRights.read.or .write⟩

def claim (name password : List UInt8) (home : NamespaceRoot) : CatalogOp UserId := do
  let previous ← Op.get
  Op.onError
    (do
      Op.guard (!previous.claimed) .alreadyClaimed
      let user ← createRecord hash fill name password home
      changeUser user fun record => { record with admin := true }
      let admin ← ensureBuiltinRole systemAdminName (adminTemplate home)
      let userRole ← ensureBuiltinRole userRoleName userTemplate
      assignRole user admin
      assignRole user userRole
      Op.modify fun c => { c with claimed := true }
      return user)
    previous.restoring

def createUser (name password : List UInt8) (home : NamespaceRoot) : CatalogOp UserId := do
  let previous ← Op.get
  Op.onError
    (do
      Op.guard previous.claimed .notClaimed
      let user ← createRecord hash fill name password home
      let role ← ensureBuiltinRole userRoleName userTemplate
      assignRole user role
      return user)
    previous.restoring

def renameUser (user : UserId) (name : List UInt8) : CatalogOp Unit := do
  let name ← Op.lift (UserName.parse name)
  let c ← Op.get
  Op.guard (!c.users.values.any fun record => decide (record.id ≠ user) && decide (record.name = name)) .capacity
  changeUser user fun record => { record with name }

def setPassword (user : UserId) (password : List UInt8) : CatalogOp Unit := do
  let salt ← Op.lift fill
  let verifier ← Op.lift (PasswordVerifier.create hash password salt)
  changeUser user fun record => { record with verifier }

def createRole (name : List UInt8) (template : CapabilityTemplate) : CatalogOp RoleId := do
  Op.guard (template.rights.isValid && template.root.isValid) .invalidName
  let name ← Op.lift (RoleName.parse name)
  let c ← Op.get
  Op.guard (!c.roles.values.any fun role => role.name = name) .capacity
  addRole name template

/-! ## Sessions -/

def attachCapability (handle : SessionHandle) (root : NamespaceRoot) (rights : NamespaceRights) :
    CatalogOp NamespaceCapabilityHandle := do
  Op.guard rights.isValid .unauthorized
  let lineage ← nextLineage
  let c ← Op.get
  let record ← Op.lift (c.session handle)
  let slot ← Op.orFail record.capabilities.firstFree .capacity
  let capability ← Op.orFail (NamespaceCapabilityHandle.new slot (record.capabilityGenerations.toList.getD slot 0)) .corrupt
  let entry : CapabilityRecord := ⟨capability, root, rights, lineage, record.lineage, false⟩
  changeSession handle fun record => { record with capabilities := record.capabilities.put slot (some entry) }
  return capability

/-- The root that a template stands for. -/
def rootFor (user : UserRecord) (template : CapabilityTemplate) : NamespaceRoot :=
  if template.root.isValid then template.root else user.home

/-- The slot that a login would take, after all its checks. -/
def UserCatalog.loginSlot (hash : PasswordHash) (c : UserCatalog) (name password : List UInt8) :
    Except UserError (UserRecord × ℕ) := do
  if c.claimed = false then .error .notClaimed
  let name ← UserName.parse name
  match c.findUser name with
  | none => .error .notFound
  | some index =>
    match c.users.get index with
    | none => .error .corrupt
    | some user =>
      user.verifier.verify hash password
      match c.sessions.firstWhere fun session => session.all (·.revoked) with
      | none => .error .capacity
      | some slot => .ok (user, slot)

/-- An empty session in the slot. -/
def openSession (user : UserRecord) (slot : ℕ) : CatalogOp SessionHandle := do
  let lineage ← nextLineage
  let c ← Op.get
  let generation := c.sessionGenerations.toList.getD slot 0
  let handle ← Op.orFail (SessionHandle.new slot generation) .corrupt
  let record : SessionRecord :=
    ⟨handle, user.id, lineage, false, .empty _ _, Vector.replicate maxCapabilitiesPerSession 1⟩
  Op.modify fun c =>
    { c with
      sessionGenerations := c.sessionGenerations.setIfInBounds slot (max ((generation + 1) % 2 ^ 32) 1),
      sessions := c.sessions.put slot (some record) }
  return handle

def closeSession (slot : ℕ) (c : UserCatalog) : UserCatalog := { c with sessions := c.sessions.put slot none }

def login (hash : PasswordHash) (name password : List UInt8) : CatalogOp (UserId × SessionHandle) := do
  let c ← Op.get
  let (user, slot) ← Op.lift (c.loginSlot hash name password)
  let handle ← openSession user slot
  let c ← Op.get
  let templates := c.templatesOf user
  Op.onError
    (do
      Op.guard (decide (templates.length ≤ maxRoleGrants * maxRoleTemplates)) .capacity
      Op.forEach
        (fun template => do
          let _ ← attachCapability handle (rootFor user template) template.rights
          return ())
        templates)
    (closeSession slot)
  return (user.id, handle)

def logout (handle : SessionHandle) : CatalogOp Unit := changeSession handle fun record => { record with revoked := true }

def derive (handle : SessionHandle) (parent : NamespaceCapabilityHandle) (root : NamespaceRoot) (rights : NamespaceRights) :
    CatalogOp NamespaceCapabilityHandle := do
  Op.guard rights.isValid .unauthorized
  let lineage ← nextLineage
  let c ← Op.get
  let record ← Op.lift (c.session handle)
  let source ← Op.orFail
    (record.capabilities.values.find? fun capability => decide (capability.handle = parent) && !capability.revoked) .stale
  Op.guard (source.rights.contains .derive && decide (source.root = root) && source.rights.contains rights) .unauthorized
  let slot ← Op.orFail record.capabilities.firstFree .capacity
  let capability ← Op.orFail (NamespaceCapabilityHandle.new slot (record.capabilityGenerations.toList.getD slot 0)) .corrupt
  let entry : CapabilityRecord := ⟨capability, root, rights, lineage, source.lineage, false⟩
  changeSession handle fun record => { record with capabilities := record.capabilities.put slot (some entry) }
  return capability

/-- One pass over the capabilities: what descends from a revoked one is revoked, and remembered while there is room. -/
def revokePass (target : ℕ) : List (Option CapabilityRecord) → List ℕ → Bool →
    List (Option CapabilityRecord) × List ℕ × Bool
  | [], revoked, changed => ([], revoked, changed)
  | none :: rest, revoked, changed =>
    match revokePass target rest revoked changed with
    | (rest, revoked, changed) => (none :: rest, revoked, changed)
  | some entry :: rest, revoked, changed =>
    if (entry.lineage = target ∨ revoked.contains entry.parentLineage) ∧ entry.revoked = false then
      match revokePass target rest
          (if revoked.length < maxCapabilitiesPerSession then revoked ++ [entry.lineage] else revoked) true with
      | (rest, revoked, changed) => (some { entry with revoked := true } :: rest, revoked, changed)
    else
      match revokePass target rest revoked changed with
      | (rest, revoked, changed) => (some entry :: rest, revoked, changed)

/-- The passes of `revoke_capability`. -/
def revokePasses (target : ℕ) : ℕ → List (Option CapabilityRecord) → List ℕ → List (Option CapabilityRecord)
  | 0, entries, _ => entries
  | passes + 1, entries, revoked =>
    match revokePass target entries revoked false with
    | (entries, revoked, changed) => if changed then revokePasses target passes entries revoked else entries

lemma length_revokePass (target : ℕ) (entries : List (Option CapabilityRecord)) (revoked : List ℕ) (changed : Bool) :
    (revokePass target entries revoked changed).1.length = entries.length := by
  induction entries generalizing revoked changed with
  | nil => rfl
  | cons entry rest ih =>
    cases entry with
    | none => simp [revokePass, ih]
    | some entry =>
      unfold revokePass
      split <;> simp [ih]

lemma length_revokePasses (target passes : ℕ) (entries : List (Option CapabilityRecord)) (revoked : List ℕ) :
    (revokePasses target passes entries revoked).length = entries.length := by
  induction passes generalizing entries revoked with
  | zero => rfl
  | succ passes ih =>
    unfold revokePasses
    dsimp only
    split
    · rw [ih, length_revokePass]
    · rw [length_revokePass]

/-- The capabilities after the revocation of the one of lineage `target` and all that descend from it. -/
def revokedFrom (target : ℕ) (capabilities : Slots maxCapabilitiesPerSession CapabilityRecord) :
    Slots maxCapabilitiesPerSession CapabilityRecord :=
  ⟨revokePasses target maxCapabilitiesPerSession capabilities.entries [target],
    by rw [length_revokePasses, capabilities.length_eq]⟩

def revokeCapability (handle : SessionHandle) (capability : NamespaceCapabilityHandle) : CatalogOp Unit := do
  let c ← Op.get
  let record ← Op.lift (c.session handle)
  let entry ← Op.orFail (record.capabilities.values.find? fun entry => entry.handle = capability) .stale
  changeSession handle fun record => { record with capabilities := revokedFrom entry.lineage record.capabilities }

/-! ## Requests -/

inductive UserOperation where
  | claim | create | rename | setPassword | login | logout | revokeSession | derive | revokeCapability | createRole | assignRole
  deriving DecidableEq, Repr

inductive UserStatus where
  | ok | invalid | unclaimed | alreadyClaimed | notFound | unauthorized | badCredentials | stale | revoked | capacity | corrupt
  deriving DecidableEq, Repr

structure UserRequest where
  operation : UserOperation
  requestId : ℕ
  user : UserId
  role : RoleId
  session : SessionHandle
  capability : NamespaceCapabilityHandle
  root : NamespaceRoot
  rights : NamespaceRights
  nameLen : ℕ
  name : List UInt8
  passwordLen : ℕ
  password : List UInt8
  deriving DecidableEq, Repr

def UserRequest.isValid (request : UserRequest) : Bool :=
  request.requestId != 0 && decide (request.nameLen ≤ userMaxUserNameBytes) &&
    decide (request.passwordLen ≤ userMaxPasswordBytes) && request.rights.bits &&& ~~~ NamespaceRights.valid == 0

structure UserResponse where
  operation : UserOperation
  status : UserStatus
  requestId : ℕ
  user : UserId
  role : RoleId
  session : SessionHandle
  capability : NamespaceCapabilityHandle
  root : NamespaceRoot
  rights : NamespaceRights
  deriving DecidableEq, Repr

def UserResponse.new (request : UserRequest) (status : UserStatus) : UserResponse :=
  ⟨request.operation, status, request.requestId, .empty, .empty, .empty, .empty, .empty, .none⟩

def mapError : UserError → UserStatus
  | .alreadyClaimed => .alreadyClaimed
  | .notClaimed => .unclaimed
  | .notFound => .notFound
  | .unauthorized => .unauthorized
  | .badCredentials => .badCredentials
  | .stale => .stale
  | .revoked => .revoked
  | .capacity => .capacity
  | .corrupt => .corrupt
  | .invalidName | .invalidPassword | .crypto | .entropy | .persistence => .invalid

/-- The session is one of an administrator. -/
def UserCatalog.admits (c : UserCatalog) (handle : SessionHandle) : Bool :=
  match c.isAdminSession handle with
  | .ok admin => admin
  | .error _ => false

/-- An operation that only an administrator may ask for. -/
def asAdmin {α : Type} (handle : SessionHandle) (m : CatalogOp α) : CatalogOp α := do
  let c ← Op.get
  if c.admits handle then m else Op.fail .unauthorized

/-- What a request does to the catalog, and what it puts into the response. -/
def perform (request : UserRequest) (response : UserResponse) : CatalogOp UserResponse :=
  let name := request.name.take request.nameLen
  let password := request.password.take request.passwordLen
  match request.operation with
  | .claim => do
    let user ← claim hash fill name password request.root
    return { response with user }
  | .create => asAdmin request.session do
    let user ← createUser hash fill name password request.root
    return { response with user }
  | .rename => asAdmin request.session do
    renameUser request.user name
    return response
  | .setPassword => asAdmin request.session do
    setPassword hash fill request.user password
    return response
  | .createRole => asAdmin request.session do
    let role ← createRole name ⟨request.root, request.rights⟩
    return { response with role }
  | .assignRole => asAdmin request.session do
    assignRole request.user request.role
    return response
  | .login => do
    let (user, session) ← login hash name password
    return { response with user, session }
  | .logout | .revokeSession => do
    logout request.session
    return response
  | .derive => do
    let capability ← derive request.session request.capability request.root request.rights
    return { response with capability, root := request.root, rights := request.rights }
  | .revokeCapability => do
    revokeCapability request.session request.capability
    return response

/-- A request with its empty root replaced where a home is asked for. -/
def UserCatalog.completed (c : UserCatalog) (request : UserRequest) : UserRequest :=
  if request.root = .empty ∧ (request.operation = .claim ∨ request.operation = .create) then
    { request with root := c.defaultHomeRoot }
  else request

/-- A login answers with the first capability of its session. -/
def UserCatalog.withFirstCapability (c : UserCatalog) (response : UserResponse) : UserResponse :=
  match response.operation with
  | .login =>
    match c.firstCapability response.session with
    | .ok (capability, root, rights) => { response with capability, root, rights }
    | .error _ => response
  | _ => response

def handle (c : UserCatalog) (request : UserRequest) : UserResponse × UserCatalog :=
  let request := c.completed request
  let response := UserResponse.new request .invalid
  if request.isValid then
    match perform hash fill request response c with
    | (.ok response, c) => (c.withFirstCapability { response with status := .ok }, c)
    | (.error error, c) => ({ response with status := mapError error }, c)
  else ({ response with status := mapError .invalidName }, c)

/-! ## Requests for concrete runs -/

/-- A request without a session, for the user `name`. -/
def plainRequest (operation : UserOperation) (name password : List UInt8) : UserRequest :=
  ⟨operation, 1, .empty, .empty, .empty, .empty, ⟨1, 1⟩, .none, name.length, name, password.length, password⟩

def plainHash : PasswordHash := fun _ _ => .ok (Bytes.zeros _)

end LogOS.User
