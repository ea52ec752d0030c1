import LogOS.User.Changes

/-!
# Accounts and sessions, step by step

What one request can do to the accounts and to the sessions.  Users stay, with their home and their standing as administrator,
and a new user has a new number.  A session is opened by a login, with capabilities that the user's roles give; after that its
capabilities are only narrowed, and an ended session stays ended.
-/

namespace LogOS.User

open Lib Op Slots List Option

/-! ## Accounts -/

variable {user : UserRecord} {c c' : UserCatalog} {slot : ℕ} {template : CapabilityTemplate}

/-- Users have numbers of their own, below the next one, and a role gives at most one capability, with rights that are valid. -/
structure Known (c : UserCatalog) : Prop where
  below : ∀ user ∈ c.users.values, user.id.value < c.nextUser
  apart : ∀ i j user other, c.users.get i = some user → c.users.get j = some other → user.id = other.id → i = j
  modest : ∀ role ∈ c.roles.values, role.held.length ≤ 1 ∧ ∀ template ∈ role.held, template.rights.isValid = true

/-- What stays of a user whatever happens. -/
structure SamePerson (user user' : UserRecord) : Prop where
  id : user'.id = user.id
  admin : user'.admin = user.admin
  home : user'.home = user.home

lemma SamePerson.refl (user : UserRecord) : SamePerson user user := ⟨rfl, rfl, rfl⟩

lemma SamePerson.trans {user' user'' : UserRecord} (h : SamePerson user user') (h' : SamePerson user' user'') :
    SamePerson user user'' :=
  ⟨h'.id.trans h.id, h'.admin.trans h.admin, h'.home.trans h.home⟩

/-- From `c` on, the accounts of `c` have stayed. -/
structure Stands (c c' : UserCatalog) : Prop where
  known : Known c'
  nextUser : c.nextUser ≤ c'.nextUser
  claimed : c.claimed = true → c'.claimed = true
  users : ∀ user ∈ c.users.values, ∃ user' ∈ c'.users.values, SamePerson user user'

lemma Known.stands (h : Known c) : Stands c c :=
  ⟨h, le_refl _, fun h => h, fun user huser => ⟨user, huser, .refl user⟩⟩

lemma Known.of_untouched (h : Known c) (hsame : Untouched c c') : Known c' := by
  refine ⟨?_, ?_, ?_⟩
  · rw [hsame.users, hsame.nextUser]
    exact h.below
  · rw [hsame.users]
    exact h.apart
  · rw [hsame.roles]
    exact h.modest

lemma Known.stands_of_untouched (h : Known c) (hsame : Untouched c c') : Stands c c' :=
  ⟨h.of_untouched hsame, le_of_eq hsame.nextUser.symm, fun hc => hsame.claimed.trans hc,
    fun user huser => ⟨user, hsame.users ▸ huser, .refl user⟩⟩

/-- Where numbers are apart, a user is the one of its slot. -/
theorem Known.eq_of_id (h : Known c) {other : UserRecord} (huser : user ∈ c.users.values)
    (hother : other ∈ c.users.values) (hid : user.id = other.id) : user = other := by
  obtain ⟨i, hi⟩ := mem_values_iff.mp huser
  obtain ⟨j, hj⟩ := mem_values_iff.mp hother
  obtain rfl := h.apart i j user other hi hj hid
  exact some.inj (hi.symm.trans hj)

section Stands

variable {c₀ c : UserCatalog}

/-- A change of the user `id` that keeps the person, or of a user that was not there in `c₀`. -/
theorem Stands.change (h : Stands c₀ c) {id : UserId} {f : UserRecord → UserRecord} (hf : ∀ user, (f user).id = user.id)
    (hold : c₀.nextUser ≤ id.value ∨ ∀ user, SamePerson user (f user)) (h0 : Known c₀) :
    Stands c₀ { c with users := c.users.change (fun user => user.id = id) f } := by
  rcases c.users.change_spec (fun user => decide (user.id = id)) f with ⟨hsame, -⟩ | ⟨i, user, hi, hget, hid, hput⟩
  · rw [hsame]
    exact h
  have hid : user.id = id := of_decide_eq_true hid
  -- the ids in the slots are the old ones
  have hids : ∀ j other, (c.users.put i (some (f user))).get j = some other →
      ∃ before, c.users.get j = some before ∧ other.id = before.id := by
    intro j other hj
    rw [get_put] at hj
    split at hj
    · rename_i hji
      obtain rfl := some.inj hj
      exact ⟨user, hji.1 ▸ hget, hf user⟩
    · exact ⟨other, hj, rfl⟩
  rw [hput]
  refine ⟨⟨?_, ?_, h.known.modest⟩, h.nextUser, h.claimed, ?_⟩
  · intro other hother
    obtain ⟨j, hj⟩ := mem_values_iff.mp hother
    obtain ⟨before, hbefore, heq⟩ := hids j other hj
    rw [heq]
    exact h.known.below before (mem_values_iff.mpr ⟨j, hbefore⟩)
  · intro j k other other' hj hk heq
    obtain ⟨before, hbefore, hid1⟩ := hids j other hj
    obtain ⟨before', hbefore', hid2⟩ := hids k other' hk
    exact h.known.apart j k before before' hbefore hbefore' (by rw [← hid1, ← hid2, heq])
  · intro old hold'
    obtain ⟨person, hperson, hsame⟩ := h.users old hold'
    obtain ⟨j, hj⟩ := mem_values_iff.mp hperson
    by_cases hji : j = i
    · subst hji
      obtain rfl : user = person := some.inj (hget.symm.trans hj)
      refine ⟨f user, mem_values_put_self hi _, ?_⟩
      rcases hold with hnew | hkeep
      · have hbelow := h0.below old hold'
        rw [← hsame.id, hid] at hbelow
        exact absurd hbelow (not_lt.mpr hnew)
      · exact hsame.trans (hkeep user)
    · exact ⟨person, mem_values_put_of_get hj hji, hsame⟩

lemma Stands.addUser (h : Stands c₀ c) (hfree : c.users.firstFree = some slot) (hid : user.id.value = c.nextUser) :
    Stands c₀ { c with nextUser := c.nextUser + 1, users := c.users.put slot (some user) } := by
  obtain ⟨hslot, hempty⟩ := firstFree_eq_some hfree
  have hnew : ∀ j other, c.users.get j = some other → user.id ≠ other.id := by
    intro j other hj heq
    have := h.known.below other (mem_values_iff.mpr ⟨j, hj⟩)
    rw [← heq, hid] at this
    exact absurd this (lt_irrefl _)
  refine ⟨⟨?_, ?_, h.known.modest⟩, Nat.le_succ_of_le h.nextUser, h.claimed, ?_⟩
  · intro other hother
    rcases mem_values_put hother with hother | hother
    · obtain rfl := some.inj hother
      rw [hid]
      exact Nat.lt_succ_self _
    · exact Nat.lt_succ_of_lt (h.known.below other hother)
  · intro j k other other' hj hk heq
    rw [get_put] at hj hk
    split at hj <;> split at hk
    · rename_i hji hki
      rw [hji.1, hki.1]
    · obtain rfl := some.inj hj
      exact absurd heq (hnew k other' hk)
    · obtain rfl := some.inj hk
      exact absurd heq.symm (hnew j other hj)
    · exact h.known.apart j k other other' hj hk heq
  · intro old hold
    obtain ⟨person, hperson, hsame⟩ := h.users old hold
    obtain ⟨j, hj⟩ := mem_values_iff.mp hperson
    refine ⟨person, mem_values_put_of_get hj ?_, hsame⟩
    rintro rfl
    rw [hempty] at hj
    cases hj

lemma Stands.addRole (h : Stands c₀ c) {id : RoleId} {name : RoleName} (hrights : template.rights.isValid = true) :
    Stands c₀
      { c with
        nextRole := c.nextRole + 1,
        roles := c.roles.put slot (some ⟨id, name, (empty _ _).put 0 (some template), 1⟩) } := by
  refine ⟨⟨h.known.below, h.known.apart, ?_⟩, h.nextUser, h.claimed, h.users⟩
  intro role hrole
  rcases mem_values_put hrole with hrole | hrole
  · obtain rfl := some.inj hrole
    refine ⟨le_refl 1, fun t ht => ?_⟩
    obtain rfl := mem_singleton.mp ht
    exact hrights
  · exact h.known.modest role hrole

end Stands

/-- Where the operation succeeds, the accounts of `c₀` still stand. -/
def Upholds {α : Type} (c₀ : UserCatalog) (m : CatalogOp α) : Prop :=
  ∀ c, Stands c₀ c → wp m (fun _ => Stands c₀) (fun _ _ => True) c

section Upholds

variable {α β : Type} {c₀ : UserCatalog} {m : CatalogOp α} {f : α → CatalogOp β}

lemma Idle.upholds (h : Idle m) : Upholds c₀ m := by
  intro c hc
  refine wp_of_eq (fun a c' hresult => ?_) fun _ _ _ => trivial
  have hidle : c' = c := by
    have := h c
    rwa [hresult] at this
  exact hidle ▸ hc

lemma Upholds.bind (hm : Upholds c₀ m) (hf : ∀ a, Upholds c₀ (f a)) : Upholds c₀ (m >>= f) := by
  intro c hc
  rw [wp_bind]
  exact wp_mono (hm c hc) (fun a c' hc' => hf a c' hc') fun _ _ _ => trivial

lemma upholds_changeUser (h0 : Known c₀) {user : UserId} {f : UserRecord → UserRecord} (hf : ∀ user, SamePerson user (f user)) :
    Upholds c₀ (changeUser user f) :=
  idle_get.upholds.bind fun _ => (idle_lift _).upholds.bind fun _ _ hc => hc.change (fun user => (hf user).id) (.inr hf) h0

lemma upholds_addRole {name : RoleName} (hrights : template.rights.isValid = true) : Upholds c₀ (addRole name template) := by
  intro c hc
  unfold addRole
  simp only [wp_bind, wp_orFail, wp_guard]
  exact ⟨fun slot _ => ⟨fun id _ => ⟨fun _ => hc.addRole hrights, fun _ => trivial⟩, fun _ => trivial⟩, fun _ => trivial⟩

lemma upholds_ensureBuiltinRole {name : List UInt8} (hrights : template.rights.isValid = true) :
    Upholds c₀ (ensureBuiltinRole name template) := by
  refine (idle_lift _).upholds.bind fun name => idle_get.upholds.bind fun c => ?_
  split
  · exact (idle_pure _).upholds
  · exact upholds_addRole hrights

lemma upholds_assignRole (h0 : Known c₀) (user : UserId) (role : RoleId) : Upholds c₀ (assignRole user role) :=
  idle_get.upholds.bind fun _ => (idle_guard _ _).upholds.bind fun _ => idle_get.upholds.bind fun _ =>
    (idle_lift _).upholds.bind fun _ => (idle_guard _ _).upholds.bind fun _ => upholds_changeUser h0 fun _ => ⟨rfl, rfl, rfl⟩

end Upholds

variable {handle : SessionHandle}

section Accounts

variable (hash : PasswordHash) (fill : Except UserError (Bytes userArgon2SaltBytes)) {c₀ c : UserCatalog}

/-- The new user has a number that nobody had. -/
theorem createRecord_spec (hc : Stands c₀ c) (name password : List UInt8) (home : NamespaceRoot) :
    wp (createRecord hash fill name password home) (fun id c' => Stands c₀ c' ∧ c₀.nextUser ≤ id.value) (fun _ _ => True) c := by
  unfold createRecord
  simp only [wp_bind, wp_lift, wp_orFail, wp_guard, implies_true, and_true]
  intro name _ _ slot hslot id hid _ salt _ verifier _
  have hvalue : id.value = c.nextUser := by
    unfold UserId.new at hid
    split at hid
    · cases hid
    · rw [← some.inj hid]
  exact ⟨hc.addUser hslot hvalue, hvalue ▸ hc.nextUser⟩

/-- A claim that succeeds is the first one. -/
theorem claim_stands (hc : Known c) (name password : List UInt8) (home : NamespaceRoot) :
    wp (claim hash fill name password home) (fun _ c' => Stands c c' ∧ c.claimed = false ∧ c'.claimed = true)
      (fun _ _ => True) c := by
  unfold claim
  rw [wp_bind, wp_get, wp_onError]
  refine wp_guard_seq (fun _ => trivial) fun hclaimed => ?_
  refine wp_seq (createRecord_spec hash fill hc.stands name password home) (fun user c1 hc1 => ?_)
  rw [wp_bind]
  have hadmin : wp (changeUser user fun record => { record with admin := true }) (fun _ => Stands c) (fun _ _ => True) c1 := by
    unfold changeUser
    simp only [wp_bind, wp_lift, implies_true, and_true]
    exact fun _ _ => hc1.1.change (fun _ => rfl) (.inl hc1.2) hc
  refine wp_mono hadmin (fun _ c2 hc2 => ?_) fun _ _ _ => trivial
  refine wp_seq (upholds_ensureBuiltinRole (show ((NamespaceRights.read.or .write).or .derive).isValid = true by decide) c2 hc2)
    (fun admin c3 hc3 => ?_)
  refine wp_seq (upholds_ensureBuiltinRole (by decide) c3 hc3) (fun userRole c4 hc4 => ?_)
  refine wp_seq (upholds_assignRole hc user admin c4 hc4) (fun _ c5 hc5 => ?_)
  refine wp_seq (upholds_assignRole hc user userRole c5 hc5) (fun _ c6 hc6 => ?_)
  exact ⟨⟨⟨hc6.known.below, hc6.known.apart, hc6.known.modest⟩, hc6.nextUser, fun _ => rfl, hc6.users⟩, by simpa using hclaimed, rfl⟩

lemma createUser_stands (hc : Known c) (name password : List UInt8) (home : NamespaceRoot) :
    wp (createUser hash fill name password home) (fun _ => Stands c) (fun _ _ => True) c := by
  unfold createUser
  rw [wp_bind, wp_get, wp_onError]
  refine wp_guard_seq (fun _ => trivial) fun _ => ?_
  refine wp_seq (createRecord_spec hash fill hc.stands name password home) (fun user c1 hc1 => ?_)
  have hrest : Upholds c (do let role ← ensureBuiltinRole userRoleName userTemplate; assignRole user role; return user) :=
    (upholds_ensureBuiltinRole (by decide)).bind fun role => (upholds_assignRole hc user role).bind fun _ => (idle_pure _).upholds
  exact hrest c1 hc1.1

lemma upholds_renameUser (h0 : Known c₀) (user : UserId) (name : List UInt8) : Upholds c₀ (renameUser user name) :=
  (idle_lift _).upholds.bind fun _ => idle_get.upholds.bind fun _ => (idle_guard _ _).upholds.bind fun _ =>
    upholds_changeUser h0 fun _ => ⟨rfl, rfl, rfl⟩

lemma upholds_setPassword (h0 : Known c₀) (user : UserId) (password : List UInt8) :
    Upholds c₀ (setPassword hash fill user password) :=
  (idle_lift _).upholds.bind fun _ => (idle_lift _).upholds.bind fun _ => upholds_changeUser h0 fun _ => ⟨rfl, rfl, rfl⟩

lemma upholds_createRole (name : List UInt8) (template : CapabilityTemplate) : Upholds c₀ (createRole name template) := by
  intro c hc
  refine wp_guard_seq (fun _ => trivial) fun hvalid => ?_
  have hrest : ∀ name : List UInt8, Upholds c₀ (do
      let name ← Op.lift (RoleName.parse name)
      let c ← Op.get
      Op.guard (!c.roles.values.any fun role => role.name = name) .capacity
      addRole name template) := fun name =>
    (idle_lift _).upholds.bind fun _ => idle_get.upholds.bind fun _ => (idle_guard _ _).upholds.bind fun _ =>
      upholds_addRole (Bool.and_eq_true_iff.mp hvalid).1
  exact hrest name c hc

lemma wp_asAdmin {α : Type} {m : CatalogOp α} {Q : α → UserCatalog → Prop}
    (h : c.admits handle = true → wp m Q (fun _ _ => True) c) : wp (asAdmin handle m) Q (fun _ _ => True) c := by
  unfold asAdmin
  rw [wp_bind, wp_get, wp_ite]
  exact ⟨h, fun _ => trivial⟩

/-- The operations that only an administrator may ask for. -/
def administrative (operation : UserOperation) : Bool :=
  match operation with
  | .create | .rename | .setPassword | .createRole | .assignRole => true
  | _ => false

lemma durable_of_administrative {operation : UserOperation} (h : administrative operation = true) : durable operation = true := by
  cases operation <;> first | rfl | cases h

/-- What an operation on accounts does where it succeeds. -/
structure Administered (c c' : UserCatalog) (request : UserRequest) : Prop where
  stands : Stands c c'
  claim : request.operation = .claim → c.claimed = false ∧ c'.claimed = true
  admin : administrative request.operation = true → c.admits request.session = true

lemma perform_administered (hc : Known c) {request : UserRequest} (response : UserResponse)
    (h : durable request.operation = true) :
    wp (perform hash fill request response) (fun _ c' => Administered c c' request) (fun _ _ => True) c := by
  have hupheld : ∀ {α : Type} {m : CatalogOp α} {g : α → UserResponse}, request.operation ≠ .claim → Upholds c m →
      wp (asAdmin request.session (m >>= fun a => pure (g a))) (fun _ c' => Administered c c' request) (fun _ _ => True) c := by
    intro α m g hclaim hm
    refine wp_asAdmin fun hadmin => ?_
    refine wp_mono ((hm.bind fun _ => (idle_pure _).upholds) c hc.stands) (fun _ c' hc' => ?_) fun _ _ _ => trivial
    exact ⟨hc', fun h => absurd h hclaim, fun _ => hadmin⟩
  unfold perform
  cases hoperation : request.operation with
  | claim =>
    refine wp_seq (claim_stands hash fill hc _ _ _) (fun _ c' hc' => ?_)
    exact ⟨hc'.1, fun _ => hc'.2, fun hadmin => (by rw [hoperation] at hadmin; cases hadmin)⟩
  | create =>
    refine wp_asAdmin fun hadmin => ?_
    refine wp_seq (createUser_stands hash fill hc _ _ _) (fun _ c' hc' => ?_)
    exact ⟨hc', fun hclaim => (by rw [hoperation] at hclaim; cases hclaim), fun _ => hadmin⟩
  | rename => exact hupheld (by rw [hoperation]; decide) (upholds_renameUser hc _ _)
  | setPassword => exact hupheld (by rw [hoperation]; decide) (upholds_setPassword hash fill hc _ _)
  | createRole => exact hupheld (by rw [hoperation]; decide) (upholds_createRole _ _)
  | assignRole => exact hupheld (by rw [hoperation]; decide) (upholds_assignRole hc _ _)
  | login | logout | revokeSession | derive | revokeCapability => rw [hoperation] at h; cases h

end Accounts

/-! ## Sessions -/

variable {record : SessionRecord}

lemma contains_self (rights : NamespaceRights) : rights.contains rights = true := by
  rw [NamespaceRights.contains, UInt8.and_self, beq_self_eq_true]

lemma contains_trans {a b d : NamespaceRights} (hab : a.contains b = true) (hbd : b.contains d = true) : a.contains d = true := by
  simp only [NamespaceRights.contains, beq_iff_eq] at *
  rw [← hbd, ← UInt8.and_assoc, hab]

lemma session_eq_ok :
    c.session handle = .ok record ↔ c.sessions.get handle.slot = some record ∧ record.handle = handle ∧ record.revoked = false := by
  unfold UserCatalog.session
  split
  · simp [*]
  · rename_i found hget
    simp only [ite_eq_ok, not_not, Bool.not_eq_true, Except.ok.injEq, hget, some.injEq]
    constructor
    · rintro ⟨hhandle, hrevoked, rfl⟩
      exact ⟨rfl, hhandle, hrevoked⟩
    · rintro ⟨rfl, hhandle, hrevoked⟩
      exact ⟨hhandle, hrevoked, rfl⟩

lemma wp_changeSession {f : SessionRecord → SessionRecord} {Q : Unit → UserCatalog → Prop}
    {E : UserError → UserCatalog → Prop} :
    wp (changeSession handle f) Q E c ↔
      (∀ record, c.session handle = .ok record → Q () { c with sessions := c.sessions.put handle.slot (some (f record)) }) ∧
        ∀ e, c.session handle = .error e → E e c := by
  unfold changeSession
  simp [wp_bind, wp_lift]

/-- A later state of a session: it stays ended, and what its capabilities allow, those before allowed. -/
structure Narrowed (record record' : SessionRecord) : Prop where
  handle : record'.handle = record.handle
  user : record'.user = record.user
  revoked : record.revoked = true → record'.revoked = true
  capabilities : ∀ x ∈ record'.capabilities.values, x.revoked = false →
    ∃ y ∈ record.capabilities.values, y.revoked = false ∧ x.root = y.root ∧ y.rights.contains x.rights = true

lemma Narrowed.refl (record : SessionRecord) : Narrowed record record :=
  ⟨rfl, rfl, fun h => h, fun x hx hlive => ⟨x, hx, hlive, rfl, contains_self _⟩⟩

/-- No session is opened, and those there are have been narrowed at most. -/
structure Attenuated (c c' : UserCatalog) : Prop where
  generations : c'.sessionGenerations = c.sessionGenerations
  sessions : ∀ slot record', c'.sessions.get slot = some record' →
    ∃ record, c.sessions.get slot = some record ∧ Narrowed record record'

lemma Attenuated.of_eq (hsessions : c'.sessions = c.sessions)
    (hgenerations : c'.sessionGenerations = c.sessionGenerations) : Attenuated c c' :=
  ⟨hgenerations, fun _ record' hget => ⟨record', hsessions ▸ hget, .refl record'⟩⟩

lemma Attenuated.of_put {record' : SessionRecord}
    (hget : c.sessions.get slot = some record) (hsessions : c'.sessions = c.sessions.put slot (some record'))
    (hgenerations : c'.sessionGenerations = c.sessionGenerations) (hnarrowed : Narrowed record record') : Attenuated c c' := by
  refine ⟨hgenerations, fun other record'' hother => ?_⟩
  rw [hsessions, get_put] at hother
  split at hother
  · rename_i heq
    obtain rfl := some.inj hother
    exact ⟨record, heq.1 ▸ hget, hnarrowed⟩
  · exact ⟨record'', hother, .refl record''⟩

lemma logout_spec (c : UserCatalog) (handle : SessionHandle) : wp (logout handle)
      (fun _ c' => Attenuated c c' ∧ (∃ record, c.session handle = .ok record) ∧
        ∀ record', c'.sessions.get handle.slot = some record' → record'.revoked = true) (fun _ c' => Attenuated c c') c := by
  unfold logout
  rw [wp_changeSession]
  refine ⟨fun record hrecord => ?_, fun _ _ => .of_eq rfl rfl⟩
  obtain ⟨hget, -, -⟩ := session_eq_ok.mp hrecord
  refine ⟨.of_put hget rfl rfl ⟨rfl, rfl, fun _ => rfl, fun x hx hlive => ⟨x, hx, hlive, rfl, contains_self _⟩⟩,
    ⟨record, hrecord⟩, fun record' hrecord' => ?_⟩
  rw [Slots.get_put] at hrecord'
  split at hrecord'
  · rw [← some.inj hrecord']
  rename_i hroom
  -- a slot that holds a record is one of the row
  have hslot : handle.slot < maxSessions := by
    by_contra hbeyond
    rw [Slots.get, getElem?_eq_none (by rw [c.sessions.length_eq]; exact Nat.le_of_not_lt hbeyond)] at hget
    cases hget
  exact absurd ⟨rfl, hslot⟩ hroom

lemma derive_spec (c : UserCatalog) (handle : SessionHandle) (parent : NamespaceCapabilityHandle) (root : NamespaceRoot)
    (rights : NamespaceRights) :
    wp (derive handle parent root rights) (fun _ c' => Attenuated c c') (fun _ c' => Attenuated c c') c := by
  unfold derive
  simp only [wp_bind, wp_guard, wp_lift, wp_orFail, wp_changeSession]
  refine ⟨fun _ => ⟨fun record hrecord => ⟨fun source hsource => ⟨fun hallowed => ⟨fun slot _ =>
    ⟨fun capability _ => ⟨fun record' hrecord' => ?_, fun _ _ => .of_eq rfl rfl⟩, fun _ => .of_eq rfl rfl⟩,
    fun _ => .of_eq rfl rfl⟩, fun _ => .of_eq rfl rfl⟩, fun _ => .of_eq rfl rfl⟩, fun _ _ => .of_eq rfl rfl⟩,
    fun _ => .of_eq rfl rfl⟩
  obtain rfl : record = record' := Except.ok.inj (hrecord.symm.trans hrecord')
  obtain ⟨hget, -, -⟩ := session_eq_ok.mp hrecord
  have hmem := mem_of_find?_eq_some hsource
  have hlive : source.revoked = false := by
    have := find?_some hsource
    simp only [Bool.and_eq_true, Bool.not_eq_true'] at this
    exact this.2
  simp only [Bool.and_eq_true, decide_eq_true_eq] at hallowed
  obtain ⟨⟨-, hroot⟩, hrights⟩ := hallowed
  refine .of_put hget rfl rfl ⟨rfl, rfl, fun h => h, fun x hx hxlive => ?_⟩
  rcases mem_values_put hx with hx | hx
  · obtain rfl := some.inj hx
    exact ⟨source, hmem, hlive, hroot.symm, hrights⟩
  · exact ⟨x, hx, hxlive, rfl, contains_self _⟩

/-- A pass changes nothing but marks. -/
theorem mem_of_mem_revokePass {target : ℕ} {x : CapabilityRecord} (hlive : x.revoked = false) :
    ∀ {entries : List (Option CapabilityRecord)} {revoked : List ℕ} {changed : Bool},
      some x ∈ (revokePass target entries revoked changed).1 → some x ∈ entries := by
  intro entries
  induction entries with
  | nil => exact fun h => h
  | cons entry rest ih =>
    intro revoked changed h
    cases entry with
    | none =>
      simp only [revokePass, mem_cons, reduceCtorEq, false_or] at h
      exact mem_cons_of_mem _ (ih h)
    | some entry =>
      unfold revokePass at h
      split at h
      · rcases mem_cons.mp h with h | h
        · rw [some.inj h] at hlive
          cases hlive
        · exact mem_cons_of_mem _ (ih h)
      · rcases mem_cons.mp h with h | h
        · exact mem_cons.mpr (.inl h)
        · exact mem_cons_of_mem _ (ih h)

lemma mem_of_mem_revokePasses {target : ℕ} {x : CapabilityRecord} (hlive : x.revoked = false) (passes : ℕ)
    {entries : List (Option CapabilityRecord)} {revoked : List ℕ} (h : some x ∈ revokePasses target passes entries revoked) :
    some x ∈ entries := by
  induction passes generalizing entries revoked with
  | zero => exact h
  | succ passes ih =>
    unfold revokePasses at h
    dsimp only at h
    split at h
    · exact mem_of_mem_revokePass hlive (ih h)
    · exact mem_of_mem_revokePass hlive h

lemma revokeCapability_spec (c : UserCatalog) (handle : SessionHandle) (capability : NamespaceCapabilityHandle) :
    wp (revokeCapability handle capability) (fun _ c' => Attenuated c c') (fun _ c' => Attenuated c c') c := by
  unfold revokeCapability
  simp only [wp_bind, wp_lift, wp_orFail, wp_changeSession]
  refine ⟨fun record hrecord => ⟨fun entry _ => ⟨fun record' hrecord' => ?_, fun _ _ => .of_eq rfl rfl⟩,
    fun _ => .of_eq rfl rfl⟩, fun _ _ => .of_eq rfl rfl⟩
  obtain rfl : record = record' := Except.ok.inj (hrecord.symm.trans hrecord')
  obtain ⟨hget, -, -⟩ := session_eq_ok.mp hrecord
  refine .of_put hget rfl rfl ⟨rfl, rfl, fun h => h, fun x hx hlive => ?_⟩
  have hmem := mem_of_mem_revokePasses hlive _ (reduceOption_mem_iff.mp hx)
  exact ⟨x, reduceOption_mem_iff.mpr hmem, hlive, rfl, contains_self _⟩

/-! ## Logging in -/

/-- The capability is one that a role of the user gave in `c`, or less. -/
def Confined (c : UserCatalog) (user : UserRecord) (capability : CapabilityRecord) : Prop :=
  ∃ id ∈ user.held, ∃ role, c.role? id = some role ∧
    ∃ template ∈ role.held, capability.root = rootFor user template ∧ template.rights.contains capability.rights = true

lemma mem_templatesOf (h : template ∈ c.templatesOf user) :
    ∃ id ∈ user.held, ∃ role, c.role? id = some role ∧ template ∈ role.held := by
  obtain ⟨id, hid, htemplate⟩ := mem_flatMap.mp h
  split at htemplate
  · rename_i role hrole
    exact ⟨id, hid, role, hrole, htemplate⟩
  · cases htemplate

lemma rights_of_mem_templatesOf (hc : Known c) (h : template ∈ c.templatesOf user) : template.rights.isValid = true := by
  obtain ⟨id, -, role, hrole, htemplate⟩ := mem_templatesOf h
  exact (hc.modest role (mem_of_find?_eq_some hrole)).2 template htemplate

lemma length_flatMap_le {α β : Type} {f : α → List β} {l : List α} (hf : ∀ a ∈ l, (f a).length ≤ 1) :
    (l.flatMap f).length ≤ l.length := by
  induction l with
  | nil => exact le_refl 0
  | cons a l ih =>
    rw [flatMap_cons, length_append, length_cons]
    have ha := hf a mem_cons_self
    have hl := ih fun b hb => hf b (mem_cons_of_mem _ hb)
    omega

lemma length_templatesOf (hc : Known c) (user : UserRecord) : (c.templatesOf user).length ≤ maxRoleGrants := by
  have hheld : user.held.length ≤ maxRoleGrants := by
    rw [UserRecord.held, length_take, Vector.length_toList]
    exact Nat.min_le_right _ _
  refine Nat.le_trans (length_flatMap_le fun id _ => ?_) hheld
  split
  · rename_i role hrole
    exact (hc.modest role (mem_of_find?_eq_some hrole)).1
  · exact Nat.zero_le 1

lemma loginSlot_eq_ok {hash : PasswordHash} {name password : List UInt8}
    (h : c.loginSlot hash name password = .ok (user, slot)) : user ∈ c.users.values ∧ slot < maxSessions := by
  obtain ⟨name, -, h⟩ := bind_eq_ok.mp (ite_eq_ok.mp h).2
  split at h
  · cases h
  split at h
  · cases h
  rename_i index _ _ _ hget
  obtain ⟨_, -, h⟩ := bind_eq_ok.mp h
  split at h
  · cases h
  rename_i place hplace
  obtain ⟨rfl, rfl⟩ := Prod.mk.inj (Except.ok.inj h)
  exact ⟨mem_values_iff.mpr ⟨index, hget⟩, (firstWhere_eq_some hplace).1⟩

/-- What a login makes of the sessions. -/
structure Opened (c c' : UserCatalog) (user : UserRecord) (slot : ℕ) (record : SessionRecord) : Prop where
  sessions : c'.sessions = c.sessions.put slot (some record)
  generations : c'.sessionGenerations =
    c.sessionGenerations.setIfInBounds slot (max ((c.sessionGenerations.toList.getD slot 0 + 1) % 2 ^ 32) 1)
  handle : record.handle = ⟨slot, c.sessionGenerations.toList.getD slot 0⟩
  owner : record.user = user.id
  revoked : record.revoked = false
  confined : ∀ x ∈ record.capabilities.values, Confined c user x

/-- The session while `attached` capabilities have been attached. -/
structure Attaching (c c' : UserCatalog) (user : UserRecord) (slot : ℕ) (attached : ℕ) (record : SessionRecord) : Prop
    extends Opened c c' user slot record where
  room : ∀ i, attached ≤ i → record.capabilities.get i = none
  unused : record.capabilityGenerations = Vector.replicate maxCapabilitiesPerSession 1

lemma attachCapability_spec {attached : ℕ}
    (h : Attaching c c' user slot attached record) (hslot : slot < maxSessions) (hroom : attached < maxCapabilitiesPerSession)
    (htemplate : template ∈ c.templatesOf user) (hrights : template.rights.isValid = true) :
    wp (attachCapability record.handle (rootFor user template) template.rights)
      (fun _ c'' => ∃ record', Attaching c c'' user slot (attached + 1) record' ∧ record'.handle = record.handle)
      (fun _ _ => False) c' := by
  have hslot' : record.handle.slot = slot := by rw [h.handle]
  have hsession : c'.session record.handle = .ok record :=
    session_eq_ok.mpr ⟨by rw [hslot', h.sessions, get_put, if_pos ⟨rfl, hslot⟩], rfl, h.revoked⟩
  obtain ⟨free, hfree, hle⟩ := record.capabilities.exists_firstFree hroom (h.room attached (le_refl _))
  have hfree' := (firstFree_eq_some hfree).1
  unfold attachCapability
  simp only [wp_bind, wp_guard, wp_lift, wp_orFail, wp_changeSession]
  refine ⟨fun _ => ⟨fun found hfound => ?_, fun e he => ?_⟩, fun hinvalid => ?_⟩
  · obtain rfl : record = found := Except.ok.inj (hsession.symm.trans hfound)
    refine ⟨fun place hplace => ?_, fun hnone => by rw [hfree] at hnone; cases hnone⟩
    obtain rfl : free = place := some.inj (hfree.symm.trans hplace)
    have hgeneration : record.capabilityGenerations.toList.getD free 0 = 1 := by
      rw [h.unused, Vector.toList_replicate, getD_eq_getElem?_getD, getElem?_replicate, if_pos hfree']
      rfl
    rw [hgeneration]
    refine ⟨fun capability hcapability => ⟨fun again hagain => ?_, fun e he => ?_⟩, fun h => by cases h⟩
    · obtain rfl : record = again := Except.ok.inj (hsession.symm.trans hagain)
      refine ⟨{ record with
        capabilities := record.capabilities.put free (some ⟨capability, rootFor user template, template.rights,
          c'.nextLineage, record.lineage, false⟩) },
        ⟨⟨?_, h.generations, h.handle, h.owner, h.revoked, ?_⟩, ?_, h.unused⟩, rfl⟩
      · rw [h.sessions, hslot', put_put]
      · intro x hx
        rcases mem_values_put hx with hx | hx
        · obtain rfl := some.inj hx
          obtain ⟨id, hid, role, hrole, hheld⟩ := mem_templatesOf htemplate
          exact ⟨id, hid, role, hrole, template, hheld, rfl, contains_self _⟩
        · exact h.confined x hx
      · intro i hi
        rw [get_put, if_neg (by omega)]
        exact h.room i (by omega)
    · cases hsession.symm.trans he
  · cases hsession.symm.trans he
  · rw [hrights] at hinvalid
    cases hinvalid

/-- A login fails before it has opened a session, or not at all. -/
theorem login_spec (hash : PasswordHash) (hc : Known c)
    (hgenerations : ∀ slot < maxSessions, c.sessionGenerations.toList.getD slot 0 ≠ 0) (name password : List UInt8) :
    wp (login hash name password)
      (fun result c' => ∃ user ∈ c.users.values, ∃ slot < maxSessions, ∃ record,
        Opened c c' user slot record ∧ result = (user.id, record.handle)) (fun _ c' => Attenuated c c') c := by
  unfold login
  rw [wp_bind, wp_get, wp_bind, wp_lift]
  refine ⟨fun found hfound => ?_, fun _ _ => .of_eq rfl rfl⟩
  obtain ⟨user, slot⟩ := found
  obtain ⟨huser, hslot⟩ := loginSlot_eq_ok hfound
  have hnew : SessionHandle.new slot (c.sessionGenerations.toList.getD slot 0) =
      some ⟨slot, c.sessionGenerations.toList.getD slot 0⟩ := if_neg (hgenerations slot hslot)
  refine wp_step (Q := fun handle c' => ∃ record, Attaching c c' user slot 0 record ∧ record.handle = handle ∧ c'.roles = c.roles)
    (E := fun _ _ => False) ?_ ?_ fun _ _ h => h.elim
  · unfold openSession nextLineage
    simp only [wp_bind, wp_get, wp_modify, wp_pure, wp_orFail, hnew]
    refine ⟨fun handle hhandle => ?_, fun h => by cases h⟩
    obtain rfl := some.inj hhandle
    refine ⟨_, ⟨⟨rfl, rfl, rfl, rfl, rfl, fun x hx => ?_⟩, fun i _ => get_empty i, rfl⟩, rfl, trivial⟩
    cases hx
  rintro handle c1 ⟨record, hattaching, rfl, hroles⟩
  have htemplates : c1.templatesOf user = c.templatesOf user := by
    unfold UserCatalog.templatesOf UserCatalog.role?
    rw [hroles]
  have hlength := length_templatesOf hc user
  rw [wp_bind, wp_get, wp_bind, wp_onError, wp_bind, wp_guard, htemplates]
  refine ⟨fun _ => ?_, fun hmany => ?_⟩
  · -- the k-th template finds the session open and the slots from k on free
    refine wp_mono (wp_forEach (E := fun _ _ => False)
      (fun done c' => ∃ record', Attaching c c' user slot done.length record' ∧ record'.handle = record.handle)
      ?_ ⟨record, hattaching, rfl⟩) (fun _ c' hc' => ?_) fun _ _ h => h.elim
    swap
    · obtain ⟨record', hrecord', hhandle⟩ := hc'
      exact ⟨user, huser, slot, hslot, record', hrecord'.toOpened, by rw [hhandle]⟩
    · rintro done template todo c' hsplit ⟨record', hrecord', hhandle⟩
      have htemplate : template ∈ c.templatesOf user := by
        rw [← hsplit]
        exact mem_append_right _ mem_cons_self
      have hroom : done.length < maxCapabilitiesPerSession := by
        have hlen := congrArg length hsplit
        rw [length_append] at hlen
        have hmax : maxRoleGrants < maxCapabilitiesPerSession := by decide
        omega
      rw [wp_bind, ← hhandle, length_append]
      exact attachCapability_spec hrecord' hslot hroom htemplate (rights_of_mem_templatesOf hc htemplate)
  · have hmax : maxRoleGrants ≤ maxRoleGrants * maxRoleTemplates := by decide
    rw [decide_eq_false_iff_not] at hmany
    exact absurd (le_trans hlength hmax) hmany

end LogOS.User
