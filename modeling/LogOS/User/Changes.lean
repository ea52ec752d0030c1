import LogOS.User.Catalog

/-!
# What the operations of the user service leave alone

An operation on accounts changes users and roles, an operation on sessions changes sessions.  An operation that fails leaves the
lasting part of the catalog as it found it: what may fail comes before the change, or the change is taken back.
-/

namespace LogOS.User

open Lib Op UserCatalog

/-- The operations on accounts, whose effect is saved. -/
def durable (operation : UserOperation) : Bool :=
  match operation with
  | .claim | .create | .rename | .setPassword | .createRole | .assignRole => true
  | _ => false

/-! ## What is left alone -/

variable {g : UserCatalog → UserCatalog}

/-- The lasting part of the catalog is the same. -/
structure Untouched (c c' : UserCatalog) : Prop where
  claimed : c'.claimed = c.claimed
  nextUser : c'.nextUser = c.nextUser
  nextRole : c'.nextRole = c.nextRole
  users : c'.users = c.users
  roles : c'.roles = c.roles
  atriumSettings : c'.atriumSettings = c.atriumSettings

lemma Untouched.refl (c : UserCatalog) : Untouched c c := ⟨rfl, rfl, rfl, rfl, rfl, rfl⟩

lemma Untouched.trans {c c' c'' : UserCatalog} (h : Untouched c c') (h' : Untouched c' c'') : Untouched c c'' :=
  ⟨h'.claimed.trans h.claimed, h'.nextUser.trans h.nextUser, h'.nextRole.trans h.nextRole, h'.users.trans h.users,
    h'.roles.trans h.roles, h'.atriumSettings.trans h.atriumSettings⟩

/-- The operation only reads. -/
def Idle {α : Type} (m : CatalogOp α) : Prop := ∀ c, (m c).2 = c

/-- The operation leaves the lasting part alone, whatever happens. -/
def Still {α : Type} (m : CatalogOp α) : Prop := ∀ c, Untouched c (m c).2

/-- The operation leaves the lasting part alone where it fails. -/
def Clean {α : Type} (m : CatalogOp α) : Prop := ∀ c e c', m c = (.error e, c') → Untouched c c'

/-- The operation does not change what `part` says of the catalog. -/
def Keeps {α γ : Type} (part : UserCatalog → γ) (m : CatalogOp α) : Prop := ∀ c, part (m c).2 = part c

/-- What the operations on accounts have no business with: the settings, the sessions, and the counter that numbers sessions
and capabilities. -/
structure Aside where
  atriumSettings : Bytes atriumSettingsRecordBytes
  nextLineage : ℕ
  sessions : Slots maxSessions SessionRecord
  sessionGenerations : Vector ℕ maxSessions

def UserCatalog.aside (c : UserCatalog) : Aside := ⟨c.atriumSettings, c.nextLineage, c.sessions, c.sessionGenerations⟩

section Rules

variable {α β γ : Type} {m : CatalogOp α} {f : α → CatalogOp β} {part : UserCatalog → γ}

lemma idle_pure (a : α) : Idle (pure a : CatalogOp α) := fun _ => rfl
lemma idle_fail (e : UserError) : Idle (fail e : CatalogOp α) := fun _ => rfl
lemma idle_lift (x : Except UserError α) : Idle (lift x) := fun _ => rfl
lemma idle_get : Idle (get : CatalogOp UserCatalog) := fun _ => rfl

lemma idle_guard (p : Bool) (e : UserError) : Idle (guard p e : CatalogOp Unit) := by
  cases p <;> exact fun _ => rfl

lemma idle_orFail (x : Option α) (e : UserError) : Idle (orFail x e : CatalogOp α) := by
  cases x <;> exact fun _ => rfl

lemma Idle.still (h : Idle m) : Still m := fun c => (h c).symm ▸ .refl c

lemma Idle.keeps (h : Idle m) : Keeps part m := fun c => congrArg part (h c)

lemma Still.bind (hm : Still m) (hf : ∀ a, Still (f a)) : Still (m >>= f) := related_bind .trans hm hf

lemma Still.clean (h : Still m) : Clean m := by
  intro c e c' hresult
  have := h c
  rw [hresult] at this
  exact this

/-- What comes before a change may fail, the change itself may not. -/
theorem Still.bind_clean (hm : Still m) (hf : ∀ a, Clean (f a)) : Clean (m >>= f) := by
  intro c e c' hresult
  rcases hm' : m c with ⟨e' | a, c1⟩
  · rw [bind_of_error hm'] at hresult
    have := hm c
    rw [hm', (Prod.mk.inj hresult).2] at this
    exact this
  · rw [bind_of_ok hm'] at hresult
    have := hm c
    rw [hm'] at this
    exact this.trans (hf a c1 e c' hresult)

/-- A last step that cannot fail. -/
theorem Clean.bind (hm : Clean m) (hf : ∀ a c e c', f a c ≠ (.error e, c')) : Clean (m >>= f) := by
  intro c e c' hresult
  rcases hm' : m c with ⟨e' | a, c1⟩
  · rw [bind_of_error hm'] at hresult
    rw [← (Prod.mk.inj hresult).2]
    exact hm c e' c1 hm'
  · rw [bind_of_ok hm'] at hresult
    exact absurd hresult (hf a c1 e c')

lemma keeps_modify (h : ∀ c, part (g c) = part c) : Keeps part (modify g) := h

lemma Keeps.bind (hm : Keeps part m) (hf : ∀ a, Keeps part (f a)) : Keeps part (m >>= f) :=
  related_bind (R := fun c c' => part c' = part c) (fun h h' => h'.trans h) hm hf

/-- The operation is about accounts: what it changes it has not changed where it fails, and the rest it leaves aside. -/
def OnAccounts (m : CatalogOp α) : Prop := Clean m ∧ Keeps UserCatalog.aside m

lemma Idle.onAccounts (h : Idle m) (hf : ∀ a, OnAccounts (f a)) : OnAccounts (m >>= f) :=
  ⟨h.still.bind_clean fun a => (hf a).1, h.keeps.bind fun a => (hf a).2⟩

lemma onAccounts_modify (h : ∀ c, (g c).aside = c.aside) : OnAccounts (modify g) := ⟨nofun, keeps_modify h⟩

lemma OnAccounts.bind_pure (h : OnAccounts m) (g : α → β) : OnAccounts (m >>= fun a => pure (g a)) :=
  ⟨h.1.bind nofun, h.2.bind fun _ => (idle_pure _).keeps⟩

/-- `claim` and `create_user` put back what they had changed. -/
theorem restoring_spec {body : UserCatalog → CatalogOp α} (h : ∀ previous, Keeps aside (body previous)) :
    OnAccounts (get >>= fun previous => onError (body previous) previous.restoring) := by
  refine ⟨?_, idle_get.keeps.bind fun previous =>
    related_onError (R := fun c c' : UserCatalog => c'.aside = c.aside) (fun h h' => h'.trans h) (h previous) fun _ => rfl⟩
  intro c e c' hresult
  have hkeep := h c c
  rw [get_bind, onError] at hresult
  rcases hbody : body c c with ⟨e' | a, c1⟩
  · rw [hbody] at hresult hkeep
    rw [← (Prod.mk.inj hresult).2]
    exact ⟨rfl, rfl, rfl, rfl, rfl, congrArg Aside.atriumSettings hkeep⟩
  · rw [hbody] at hresult
    cases hresult

end Rules

/-! ## Every operation -/

lemma onAccounts_changeUser (user : UserId) (f : UserRecord → UserRecord) : OnAccounts (changeUser user f) :=
  idle_get.onAccounts fun _ => (idle_lift _).onAccounts fun _ => onAccounts_modify fun _ => rfl

lemma still_nextLineage : Still nextLineage :=
  idle_get.still.bind fun _ => Still.bind (fun _ => ⟨rfl, rfl, rfl, rfl, rfl, rfl⟩) fun _ => (idle_pure _).still

lemma still_changeSession (handle : SessionHandle) (f : SessionRecord → SessionRecord) : Still (changeSession handle f) :=
  idle_get.still.bind fun _ => (idle_lift _).still.bind fun _ => fun _ => ⟨rfl, rfl, rfl, rfl, rfl, rfl⟩

lemma keepsLineage_changeSession (handle : SessionHandle) (f : SessionRecord → SessionRecord) :
    Keeps UserCatalog.nextLineage (changeSession handle f) :=
  idle_get.keeps.bind fun _ => (idle_lift _).keeps.bind fun _ => fun _ => rfl

variable (hash : PasswordHash) (fill : Except UserError (Bytes userArgon2SaltBytes))

lemma keepsAside_createRecord (name password : List UInt8) (home : NamespaceRoot) :
    Keeps aside (createRecord hash fill name password home) :=
  (idle_lift _).keeps.bind fun _ => idle_get.keeps.bind fun _ => (idle_guard _ _).keeps.bind fun _ =>
    (idle_orFail _ _).keeps.bind fun _ => (idle_orFail _ _).keeps.bind fun _ =>
    (idle_guard _ _).keeps.bind fun _ => (idle_lift _).keeps.bind fun _ =>
    (idle_lift _).keeps.bind fun _ => Keeps.bind (keeps_modify fun _ => rfl) fun _ =>
    (idle_pure _).keeps

lemma onAccounts_addRole (name : RoleName) (template : CapabilityTemplate) : OnAccounts (addRole name template) :=
  idle_get.onAccounts fun _ => (idle_orFail _ _).onAccounts fun _ => (idle_orFail _ _).onAccounts fun _ =>
    (idle_guard _ _).onAccounts fun _ => .bind_pure (onAccounts_modify (by exact fun _ => rfl)) _

variable (name : List UInt8)

lemma keepsAside_ensureBuiltinRole (template : CapabilityTemplate) : Keeps aside (ensureBuiltinRole name template) := by
  refine (idle_lift _).keeps.bind fun name => idle_get.keeps.bind fun c => ?_
  split
  · exact (idle_pure _).keeps
  · exact (onAccounts_addRole name template).2

variable (user : UserId)

lemma onAccounts_assignRole (role : RoleId) : OnAccounts (assignRole user role) :=
  idle_get.onAccounts fun _ => (idle_guard _ _).onAccounts fun _ => idle_get.onAccounts fun _ =>
    (idle_lift _).onAccounts fun _ => (idle_guard _ _).onAccounts fun _ => onAccounts_changeUser _ _

lemma onAccounts_claim (name password : List UInt8) (home : NamespaceRoot) :
    OnAccounts (claim hash fill name password home) :=
  restoring_spec fun _ => (idle_guard _ _).keeps.bind fun _ =>
    (keepsAside_createRecord hash fill name password home).bind fun _ =>
    (onAccounts_changeUser _ _).2.bind fun _ => (keepsAside_ensureBuiltinRole _ _).bind fun _ =>
    (keepsAside_ensureBuiltinRole _ _).bind fun _ => (onAccounts_assignRole _ _).2.bind fun _ =>
    (onAccounts_assignRole _ _).2.bind fun _ => Keeps.bind (keeps_modify fun _ => rfl) fun _ =>
    (idle_pure _).keeps

lemma onAccounts_createUser (name password : List UInt8) (home : NamespaceRoot) :
    OnAccounts (createUser hash fill name password home) :=
  restoring_spec fun _ => (idle_guard _ _).keeps.bind fun _ =>
    (keepsAside_createRecord hash fill name password home).bind fun _ =>
    (keepsAside_ensureBuiltinRole _ _).bind fun _ => (onAccounts_assignRole _ _).2.bind fun _ =>
    (idle_pure _).keeps

lemma onAccounts_renameUser (name : List UInt8) : OnAccounts (renameUser user name) :=
  (idle_lift _).onAccounts fun _ => idle_get.onAccounts fun _ => (idle_guard _ _).onAccounts fun _ => onAccounts_changeUser _ _

lemma onAccounts_setPassword (password : List UInt8) : OnAccounts (setPassword hash fill user password) :=
  (idle_lift _).onAccounts fun _ => (idle_lift _).onAccounts fun _ => onAccounts_changeUser _ _

lemma onAccounts_createRole (template : CapabilityTemplate) : OnAccounts (createRole name template) :=
  (idle_guard _ _).onAccounts fun _ => (idle_lift _).onAccounts fun _ => idle_get.onAccounts fun _ =>
    (idle_guard _ _).onAccounts fun _ => onAccounts_addRole _ _

lemma still_attachCapability (handle : SessionHandle) (root : NamespaceRoot) (rights : NamespaceRights) :
    Still (attachCapability handle root rights) :=
  (idle_guard _ _).still.bind fun _ => still_nextLineage.bind fun _ => idle_get.still.bind fun _ => (idle_lift _).still.bind fun _ =>
    (idle_orFail _ _).still.bind fun _ => (idle_orFail _ _).still.bind fun _ => (still_changeSession _ _).bind fun _ => (idle_pure _).still

lemma still_forEach {β : Type} {f : β → CatalogOp Unit} (hf : ∀ b, Still (f b)) (l : List β) : Still (forEach f l) := by
  induction l with
  | nil => exact (idle_pure ()).still
  | cons b l ih => exact (hf b).bind fun _ => ih

lemma still_openSession (user : UserRecord) (slot : ℕ) : Still (openSession user slot) :=
  still_nextLineage.bind fun _ => idle_get.still.bind fun _ => (idle_orFail _ _).still.bind fun _ =>
    Still.bind (fun _ => ⟨rfl, rfl, rfl, rfl, rfl, rfl⟩) fun _ => (idle_pure _).still

variable {α : Type}

lemma still_login (hash : PasswordHash) (name password : List UInt8) : Still (login hash name password) := by
  refine idle_get.still.bind fun c => (idle_lift _).still.bind fun found => (still_openSession _ _).bind fun handle => ?_
  refine idle_get.still.bind fun c => Still.bind ?_ fun _ => (idle_pure _).still
  refine related_onError .trans ?_ fun _ => ⟨rfl, rfl, rfl, rfl, rfl, rfl⟩
  refine (idle_guard _ _).still.bind fun _ => still_forEach (fun template => ?_) _
  exact (still_attachCapability _ _ _).bind fun _ => (idle_pure _).still

section

variable (handle : SessionHandle)
include handle

lemma still_derive (parent : NamespaceCapabilityHandle) (root : NamespaceRoot)
    (rights : NamespaceRights) : Still (derive handle parent root rights) :=
  (idle_guard _ _).still.bind fun _ => still_nextLineage.bind fun _ => idle_get.still.bind fun _ => (idle_lift _).still.bind fun _ =>
    (idle_orFail _ _).still.bind fun _ => (idle_guard _ _).still.bind fun _ => (idle_orFail _ _).still.bind fun _ =>
    (idle_orFail _ _).still.bind fun _ => (still_changeSession _ _).bind fun _ => (idle_pure _).still

lemma still_revokeCapability (capability : NamespaceCapabilityHandle) : Still (revokeCapability handle capability) :=
  idle_get.still.bind fun _ => (idle_lift _).still.bind fun _ => (idle_orFail _ _).still.bind fun _ => still_changeSession _ _

lemma keepsLineage_revokeCapability (capability : NamespaceCapabilityHandle) :
    Keeps UserCatalog.nextLineage (revokeCapability handle capability) :=
  idle_get.keeps.bind fun _ => (idle_lift _).keeps.bind fun _ => (idle_orFail _ _).keeps.bind fun _ =>
    keepsLineage_changeSession _ _

lemma OnAccounts.asAdmin {m : CatalogOp α} (hm : OnAccounts m) : OnAccounts (asAdmin handle m) := by
  refine idle_get.onAccounts fun c => ?_
  split
  · exact hm
  · exact ⟨(idle_fail _).still.clean, (idle_fail _).keeps⟩

end

variable {request : UserRequest}

variable (response : UserResponse)

lemma still_perform (h : durable request.operation = false) : Still (perform hash fill request response) := by
  unfold perform
  cases hoperation : request.operation with
  | claim | create | rename | setPassword | createRole | assignRole => rw [hoperation] at h; cases h
  | login => exact (still_login hash _ _).bind fun _ => (idle_pure _).still
  | logout | revokeSession => exact (still_changeSession _ _).bind fun _ => (idle_pure _).still
  | derive => exact (still_derive _ _ _ _).bind fun _ => (idle_pure _).still
  | revokeCapability => exact (still_revokeCapability _ _).bind fun _ => (idle_pure _).still

lemma onAccounts_perform (h : durable request.operation = true) : OnAccounts (perform hash fill request response) := by
  unfold perform
  cases hoperation : request.operation with
  | claim => exact (onAccounts_claim hash fill _ _ _).bind_pure _
  | create => exact ((onAccounts_createUser hash fill _ _ _).bind_pure _).asAdmin _
  | rename => exact ((onAccounts_renameUser _ _).bind_pure _).asAdmin _
  | setPassword => exact ((onAccounts_setPassword hash fill _ _).bind_pure _).asAdmin _
  | createRole => exact ((onAccounts_createRole _ _).bind_pure _).asAdmin _
  | assignRole => exact ((onAccounts_assignRole _ _).bind_pure _).asAdmin _
  | login | logout | revokeSession | derive | revokeCapability => rw [hoperation] at h; cases h

lemma clean_perform (request : UserRequest) (response : UserResponse) : Clean (perform hash fill request response) := by
  cases hdurable : durable request.operation with
  | true => exact (onAccounts_perform hash fill response hdurable).1
  | false => exact (still_perform hash fill response hdurable).clean

/-- Logging in and deriving number what they make, also where they fail in the end. -/
theorem keepsLineage_perform (hlogin : request.operation ≠ .login)
    (hderive : request.operation ≠ .derive) : Keeps UserCatalog.nextLineage (perform hash fill request response) := by
  by_cases hdurable : durable request.operation = true
  · exact fun c => congrArg Aside.nextLineage ((onAccounts_perform hash fill response hdurable).2 c)
  unfold perform
  cases hoperation : request.operation with
  | claim | create | rename | setPassword | createRole | assignRole => exact absurd (by rw [hoperation]; rfl) hdurable
  | login => exact absurd hoperation hlogin
  | derive => exact absurd hoperation hderive
  | logout | revokeSession => exact (keepsLineage_changeSession _ _).bind fun _ => (idle_pure _).keeps
  | revokeCapability => exact (keepsLineage_revokeCapability _ _).bind fun _ => (idle_pure _).keeps

variable (c : UserCatalog)

/-- The first capability of a session is all that a login adds to its response. -/
theorem withFirstCapability_spec (response : UserResponse) :
    (c.withFirstCapability response).status = response.status ∧ (c.withFirstCapability response).user = response.user ∧
      (c.withFirstCapability response).session = response.session := by
  unfold withFirstCapability
  split
  · split <;> exact ⟨rfl, rfl, rfl⟩
  · exact ⟨rfl, rfl, rfl⟩

lemma untouched_handle (request : UserRequest) (h : (handle hash fill c request).1.status ≠ .ok) :
    Untouched c (handle hash fill c request).2 := by
  revert h
  unfold handle
  dsimp only
  split
  · rcases hresult : perform hash fill (c.completed request) (.new (c.completed request) .invalid) c with ⟨e | response, c'⟩
    · intro _
      exact clean_perform hash fill _ _ c e c' hresult
    · intro h
      rw [(withFirstCapability_spec _ _).1] at h
      exact absurd rfl h
  · intro _
    exact .refl c

lemma operation_completed (request : UserRequest) : (c.completed request).operation = request.operation := by
  unfold completed
  split <;> rfl

lemma Keeps.handle {γ : Type} {part : UserCatalog → γ} {c : UserCatalog}
    (h : Keeps part (perform hash fill (c.completed request) (.new (c.completed request) .invalid))) :
    part (handle hash fill c request).2 = part c := by
  have hkeep := h c
  unfold User.handle
  dsimp only
  split
  · rcases hresult : perform hash fill (c.completed request) (.new (c.completed request) .invalid) c with ⟨e | response, c'⟩
    · rw [hresult] at hkeep
      exact hkeep
    · rw [hresult] at hkeep
      exact hkeep
  · rfl

lemma nextLineage_handle (request : UserRequest) (hlogin : request.operation ≠ .login)
    (hderive : request.operation ≠ .derive) : (handle hash fill c request).2.nextLineage = c.nextLineage :=
  Keeps.handle hash fill (keepsLineage_perform hash fill _ (by rwa [operation_completed]) (by rwa [operation_completed]))

end LogOS.User
