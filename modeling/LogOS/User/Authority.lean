import LogOS.User.Sessions

/-!
# The authority of users

The history of a user service that starts with an empty catalog.  The service is claimed at most once.  Only an administrator who
is logged in changes accounts.  A session that was ended is over for good, also when its slot is taken again: the generation of
the slot tells the sessions apart, and it comes back only after `2 ^ 32 - 1` logins.  What the capabilities of a session allow,
a role of the user allowed at login.
-/

namespace LogOS.User

open Lib Op UserCatalog List Bool

/-! ## One request -/

/-- What a request that succeeds does. -/
structure Performed (c c' : UserCatalog) (request : UserRequest) (response : UserResponse) : Prop where
  stands : Stands c c'
  claim : request.operation = .claim → c.claimed = false ∧ c'.claimed = true
  admin : administrative request.operation = true → c.admits request.session = true
  ends : request.operation = .logout ∨ request.operation = .revokeSession →
    (∃ record, c.session request.session = .ok record) ∧
      ∀ record', c'.sessions.get request.session.slot = some record' → record'.revoked = true
  sessions : request.operation ≠ .login ∧ Attenuated c c' ∨
    request.operation = .login ∧ ∃ user ∈ c.users.values, ∃ slot < maxSessions, ∃ record,
      Opened c c' user slot record ∧ response.user = user.id ∧ response.session = record.handle

section Requests

variable (hash : PasswordHash) (fill : Except UserError (Bytes userArgon2SaltBytes)) {c : UserCatalog}

section

variable (hc : Known c) (hgenerations : ∀ slot < maxSessions, c.sessionGenerations.toList.getD slot 0 ≠ 0)
include hc hgenerations

/-- The session side of the requests that are not about accounts. -/
theorem perform_sessions {request : UserRequest} (response : UserResponse) (h : durable request.operation = false) :
    wp (perform hash fill request response)
      (fun response c' => Untouched c c' → Performed c c' request response) (fun _ c' => Attenuated c c') c := by
  have hnarrow : ∀ {c' : UserCatalog} {response : UserResponse}, request.operation ≠ .login →
      ¬ (request.operation = .logout ∨ request.operation = .revokeSession) → Attenuated c c' → Untouched c c' →
      Performed c c' request response := by
    intro c' response hlogin hends hattenuated huntouched
    refine ⟨hc.stands_of_untouched huntouched, fun h' => ?_, fun h' => ?_, fun h' => absurd h' hends, .inl ⟨hlogin, hattenuated⟩⟩
    · rw [h'] at h
      cases h
    · rw [durable_of_administrative h'] at h
      cases h
  have hlogout : request.operation = .logout ∨ request.operation = .revokeSession →
      wp (logout request.session >>= fun _ => pure response)
        (fun response c' => Untouched c c' → Performed c c' request response) (fun _ c' => Attenuated c c') c := by
    intro hoperation
    refine wp_seq (logout_spec c request.session) (fun _ c' hc' huntouched => ?_)
    refine ⟨hc.stands_of_untouched huntouched, fun h' => ?_, fun h' => ?_, fun _ => hc'.2, .inl ⟨fun h' => ?_, hc'.1⟩⟩
    all_goals rcases hoperation with hoperation | hoperation <;> rw [hoperation] at h' <;> cases h'
  unfold perform
  cases hoperation : request.operation with
  | claim | create | rename | setPassword | createRole | assignRole => rw [hoperation] at h; cases h
  | login =>
    refine wp_seq (login_spec hash hc hgenerations _ _) (fun result c' hc' huntouched => ?_)
    obtain ⟨user, huser, slot, hslot, record, hopened, rfl⟩ := hc'
    refine ⟨hc.stands_of_untouched huntouched, fun h' => ?_, fun h' => ?_, fun h' => ?_,
      .inr ⟨hoperation, user, huser, slot, hslot, record, hopened, rfl, rfl⟩⟩
    all_goals rw [hoperation] at h'
    · cases h'
    · cases h'
    · rcases h' with h' | h' <;> cases h'
  | logout => exact hlogout (.inl hoperation)
  | revokeSession => exact hlogout (.inr hoperation)
  | derive =>
    rw [wp_bind]
    exact wp_mono (derive_spec c _ _ _ _) (fun _ _ => hnarrow (by rw [hoperation]; decide) (by rw [hoperation]; decide))
      fun _ _ h => h
  | revokeCapability =>
    rw [wp_bind]
    exact wp_mono (revokeCapability_spec c _ _) (fun _ _ => hnarrow (by rw [hoperation]; decide) (by rw [hoperation]; decide))
      fun _ _ h => h

lemma perform_spec (request : UserRequest) (response : UserResponse) :
    wp (perform hash fill request response) (fun response c' => Performed c c' request response)
      (fun _ c' => Untouched c c' ∧ Attenuated c c') c := by
  by_cases hdurable : durable request.operation = true
  · have haside := (onAccounts_perform hash fill response hdurable).2 c
    have hadministered := perform_administered hash fill hc response hdurable
    refine wp_of_eq (fun response' c' hresult => ?_) fun e c' hresult => ?_
    all_goals
      rw [hresult] at haside
      have hattenuated : Attenuated c c' := .of_eq (congrArg Aside.sessions haside) (congrArg Aside.sessionGenerations haside)
    · have hdone := wp_ok hadministered hresult
      refine ⟨hdone.stands, hdone.claim, hdone.admin, fun h => ?_, .inl ⟨fun h => ?_, hattenuated⟩⟩
      · rcases h with h | h <;> rw [h] at hdurable <;> cases hdurable
      · rw [h] at hdurable
        cases hdurable
    · exact ⟨clean_perform hash fill request response c e c' hresult, hattenuated⟩
  · have hdurable := eq_false_iff.mpr hdurable
    have hstill := still_perform hash fill response hdurable c
    exact wp_mono (wp_and (wp_of_state hstill) (perform_sessions hash fill hc hgenerations response hdurable))
      (fun _ _ h => h.2 h.1) fun _ _ h => h

end

lemma mapError_ne_ok (error : UserError) : mapError error ≠ .ok := by
  cases error <;> decide

/-- What a request does: it succeeds with its effect, or it leaves accounts alone and opens no session. -/
theorem handle_spec (hc : Known c) (hgenerations : ∀ slot < maxSessions, c.sessionGenerations.toList.getD slot 0 ≠ 0)
    (request : UserRequest) :
    (handle hash fill c request).1.status = .ok ∧
        Performed c (handle hash fill c request).2 request (handle hash fill c request).1 ∨
      (handle hash fill c request).1.status ≠ .ok ∧ Untouched c (handle hash fill c request).2 ∧
        Attenuated c (handle hash fill c request).2 := by
  have hperform := perform_spec hash fill hc hgenerations (c.completed request) (.new (c.completed request) .invalid)
  have hsession : (c.completed request).session = request.session := by
    unfold completed
    split <;> rfl
  unfold handle
  dsimp only
  split
  · rcases hresult : perform hash fill (c.completed request) (.new (c.completed request) .invalid) c with ⟨e | response, c'⟩
    · have hfailed := wp_error hperform hresult
      exact .inr ⟨mapError_ne_ok e, hfailed⟩
    have hdone := wp_ok hperform hresult
    refine .inl ⟨(withFirstCapability_spec _ _).1, ?_⟩
    obtain ⟨hstands, hclaim, hadmin, hends, hsessions⟩ := hdone
    rw [operation_completed] at hclaim hadmin hends hsessions
    rw [hsession] at hadmin hends
    refine ⟨hstands, hclaim, hadmin, hends, hsessions.imp_right ?_⟩
    rintro ⟨hlogin, user, huser, slot, hslot, record, hopened, hresponse⟩
    obtain ⟨-, hsame⟩ := withFirstCapability_spec c' { response with status := .ok }
    exact ⟨hlogin, user, huser, slot, hslot, record, hopened, hsame.1.trans hresponse.1, hsame.2.trans hresponse.2⟩
  · exact .inr ⟨mapError_ne_ok .invalidName, .refl c, .of_eq rfl rfl⟩

end Requests

/-! ## Histories -/

/-- A request, the catalog it found, and its response. -/
structure Exchange where
  before : UserCatalog
  request : UserRequest
  response : UserResponse

namespace Exchange

variable (e : Exchange)

def succeeds (operation : UserOperation) : Bool := decide (e.request.operation = operation) && decide (e.response.status = .ok)

/-- A login that answered with the handle. -/
def Returns (handle : SessionHandle) : Prop := e.succeeds .login = true ∧ e.response.session = handle

/-- A `Logout` or a `RevokeSession` that ended the handle. -/
def Ends (handle : SessionHandle) : Prop :=
  (e.succeeds .logout = true ∨ e.succeeds .revokeSession = true) ∧ e.request.session = handle

/-- A change of accounts that only an administrator may ask for. -/
def Administers : Prop := administrative e.request.operation = true ∧ e.response.status = .ok

lemma succeeds_iff {operation : UserOperation} :
    e.succeeds operation = true ↔ e.request.operation = operation ∧ e.response.status = .ok := by
  rw [succeeds, and_eq_true, decide_eq_true_eq, decide_eq_true_eq]

end Exchange

/-- The number of logins that took the slot. -/
def logins (slot : ℕ) (past : List Exchange) : ℕ :=
  past.countP fun e => e.succeeds .login && decide (e.response.session.slot = slot)

/-- The runs from an empty catalog, the last exchange first. -/
inductive Reached (hash : PasswordHash) : List Exchange → UserCatalog → Prop
  | start : Reached hash [] .new
  | step {past : List Exchange} {c : UserCatalog} (fill : Except UserError (Bytes userArgon2SaltBytes)) (request : UserRequest)
      (h : Reached hash past c) :
      Reached hash (⟨c, request, (handle hash fill c request).1⟩ :: past) (handle hash fill c request).2

/-- The handle was returned by the login of an administrator, and has not been ended since. -/
def AdminSession (past : List Exchange) (handle : SessionHandle) : Prop :=
  ∃ since login earlier, past = since ++ login :: earlier ∧ login.Returns handle ∧
    (∃ user ∈ login.before.users.values, user.id = login.response.user ∧ user.admin = true) ∧ ∀ e ∈ since, ¬ e.Ends handle

/-- A login that the session comes from: its user is still there, and the capabilities are confined to what the roles of the
user gave at the time. -/
structure Origin (c : UserCatalog) (record : SessionRecord) (login : Exchange) (user : UserRecord) : Prop where
  returns : login.Returns record.handle
  response : login.response.user = record.user
  member : user ∈ login.before.users.values
  owner : user.id = record.user
  confined : ∀ x ∈ record.capabilities.values, x.revoked = false → Confined login.before user x
  stays : ∃ user' ∈ c.users.values, SamePerson user user'

/-- What holds of the history and the catalog it led to. -/
structure Inv (past : List Exchange) (c : UserCatalog) : Prop where
  known : Known c
  generations : ∀ slot < maxSessions, c.sessionGenerations.toList.getD slot 0 = logins slot past % (2 ^ 32 - 1) + 1
  opened : ∀ slot record, c.sessions.get slot = some record → record.handle.slot = slot ∧
    record.handle.generation ≤ logins slot past ∧ ∃ login ∈ past, ∃ user, Origin c record login user
  ended : ∀ e ∈ past, ∀ handle, e.Ends handle → handle.generation ≤ logins handle.slot past ∧
    ∀ record, c.sessions.get handle.slot = some record → record.handle = handle → record.revoked = true
  claims : past.countP (·.succeeds .claim) ≤ if c.claimed then 1 else 0
  admins : ∀ later e earlier, past = later ++ e :: earlier → e.Administers → AdminSession earlier e.request.session

lemma inv_start : Inv [] .new := by
  refine ⟨⟨?_, ?_, ?_⟩, ?_, ?_, ?_, le_refl 0, ?_⟩
  · intro user huser
    cases huser
  · intro i j user other hi
    rw [new, Slots.get_empty] at hi
    cases hi
  · intro role hrole
    cases hrole
  · intro slot hslot
    rw [new, Vector.toList_replicate, getD_eq_getElem?_getD, getElem?_replicate, if_pos hslot]
    rfl
  · intro slot record hget
    rw [new, Slots.get_empty] at hget
    cases hget
  · intro e he
    cases he
  · intro later e earlier h
    cases later <;> cases h

/-! ## What a step keeps -/

lemma logins_cons_of_login {e : Exchange} {handle : SessionHandle} (h : e.Returns handle) (slot : ℕ) (past : List Exchange) :
    logins slot (e :: past) = logins slot past + if slot = handle.slot then 1 else 0 := by
  unfold logins
  rw [countP_cons, h.1, h.2, Bool.true_and]
  by_cases hslot : slot = handle.slot
  · rw [if_pos hslot, if_pos (by rw [hslot, decide_eq_true rfl])]
  · rw [if_neg hslot, if_neg fun h => hslot (of_decide_eq_true h).symm]

lemma logins_cons_of_not_login {e : Exchange} (h : e.succeeds .login = false) (slot : ℕ) (past : List Exchange) :
    logins slot (e :: past) = logins slot past := by
  unfold logins
  rw [countP_cons, h]
  rfl

lemma logins_le_cons (e : Exchange) (slot : ℕ) (past : List Exchange) : logins slot past ≤ logins slot (e :: past) := by
  unfold logins
  rw [countP_cons]
  exact Nat.le_add_right _ _

section Step

variable {past : List Exchange} {c c' : UserCatalog} {e : Exchange}

/-- The user of a session is still there after the step. -/
theorem Origin.step {record record' : SessionRecord} {login : Exchange} {user : UserRecord} (h : Origin c record login user)
    (hstands : Stands c c') (hnarrowed : Narrowed record record') : Origin c' record' login user := by
  refine ⟨hnarrowed.handle ▸ h.returns, h.response.trans hnarrowed.user.symm, h.member, h.owner.trans hnarrowed.user.symm, ?_, ?_⟩
  · intro x hx hlive
    obtain ⟨y, hy, hylive, hroot, hrights⟩ := hnarrowed.capabilities x hx hlive
    obtain ⟨id, hid, role, hrole, template, htemplate, hroot', hrights'⟩ := h.confined y hy hylive
    exact ⟨id, hid, role, hrole, template, htemplate, hroot.trans hroot', contains_trans hrights' hrights⟩
  · obtain ⟨user', huser', hsame⟩ := h.stays
    obtain ⟨user'', huser'', hsame'⟩ := hstands.users user' huser'
    exact ⟨user'', huser'', hsame.trans hsame'⟩

/-- A session that an administrator works with was opened by a login of an administrator. -/
theorem Inv.adminSession (h : Inv past c) {handle : SessionHandle} (hadmits : c.admits handle = true) :
    AdminSession past handle := by
  obtain ⟨record, user', hsession, huser', hadmin⟩ : ∃ record user', c.session handle = .ok record ∧
      c.userRef record.user = .ok user' ∧ user'.admin = true := by
    unfold admits isAdminSession at hadmits
    rcases hsession : c.session handle with _ | record
    · rw [hsession] at hadmits
      cases hadmits
    rw [hsession] at hadmits
    rcases huser : c.userRef record.user with _ | user'
    · simp only [bind, Except.bind, huser] at hadmits
      cases hadmits
    · simp only [bind, Except.bind, huser] at hadmits
      exact ⟨record, user', rfl, huser, hadmits⟩
  obtain ⟨hget, hhandle, hlive⟩ := session_eq_ok.mp hsession
  obtain ⟨-, -, login, hlogin, user, horigin⟩ := h.opened _ _ hget
  obtain ⟨since, earlier, hpast⟩ := append_of_mem hlogin
  refine ⟨since, login, earlier, hpast, hhandle ▸ horigin.returns, ⟨user, horigin.member, horigin.owner.trans horigin.response.symm, ?_⟩, ?_⟩
  · obtain ⟨person, hperson, hsame⟩ := horigin.stays
    obtain ⟨hmember, hid⟩ : user' ∈ c.users.values ∧ user'.id = record.user := by
      unfold userRef at huser'
      split at huser'
      · rename_i found hfound
        obtain rfl := Except.ok.inj huser'
        have hid := find?_some hfound
        exact ⟨mem_of_find?_eq_some hfound, of_decide_eq_true hid⟩
      · cases huser'
    have heq : person = user' := h.known.eq_of_id hperson hmember (by rw [hsame.id, horigin.owner, hid])
    rw [← hsame.admin, heq, hadmin]
  · intro e he hends
    have hmem : e ∈ past := hpast ▸ mem_append_left _ he
    have hrevoked := (h.ended e hmem handle hends).2 record hget hhandle
    rw [hlive] at hrevoked
    cases hrevoked

/-- The parts of the invariant that do not speak of sessions. -/
theorem Inv.claims_step (h : Inv past c) (hstands : c.claimed = true → c'.claimed = true)
    (hclaim : e.succeeds .claim = true → c.claimed = false ∧ c'.claimed = true) :
    (e :: past).countP (·.succeeds .claim) ≤ if c'.claimed then 1 else 0 := by
  have hclaims := h.claims
  rw [countP_cons]
  by_cases he : e.succeeds .claim = true
  · obtain ⟨hbefore, hafter⟩ := hclaim he
    rw [hbefore] at hclaims
    rw [if_pos he, if_pos hafter]
    exact Nat.succ_le_succ hclaims
  · rw [if_neg he]
    refine Nat.le_trans hclaims ?_
    by_cases hc : c.claimed = true
    · rw [if_pos hc, if_pos (hstands hc)]
    · rw [if_neg hc]
      exact Nat.zero_le _

lemma Inv.admins_step (h : Inv past c) (hadmin : e.Administers → c.admits e.request.session = true) :
    ∀ later e' earlier, e :: past = later ++ e' :: earlier → e'.Administers → AdminSession earlier e'.request.session := by
  intro later e' earlier hsplit hadministers
  cases later with
  | nil =>
    obtain ⟨rfl, rfl⟩ := cons.inj hsplit
    exact h.adminSession (hadmin hadministers)
  | cons x later =>
    obtain ⟨-, hpast⟩ := cons.inj hsplit
    exact h.admins later e' earlier hpast hadministers

/-- A step that opens no session. -/
theorem Inv.attenuated (h : Inv past c) (hstands : Stands c c') (hattenuated : Attenuated c c')
    (hlogin : e.succeeds .login = false)
    (hends : ∀ handle, e.Ends handle → (∃ record, c.session handle = .ok record) ∧
      ∀ record', c'.sessions.get handle.slot = some record' → record'.revoked = true)
    (hclaim : e.succeeds .claim = true → c.claimed = false ∧ c'.claimed = true)
    (hadmin : e.Administers → c.admits e.request.session = true) : Inv (e :: past) c' := by
  refine ⟨hstands.known, ?_, ?_, ?_, h.claims_step hstands.claimed hclaim, h.admins_step hadmin⟩
  · intro slot hslot
    rw [hattenuated.generations, logins_cons_of_not_login hlogin]
    exact h.generations slot hslot
  · intro slot record' hget'
    obtain ⟨record, hget, hnarrowed⟩ := hattenuated.sessions slot record' hget'
    obtain ⟨hslot, hgeneration, login, hmem, user, horigin⟩ := h.opened slot record hget
    rw [hnarrowed.handle, logins_cons_of_not_login hlogin]
    exact ⟨hslot, hgeneration, login, mem_cons_of_mem _ hmem, user, horigin.step hstands hnarrowed⟩
  · intro e' he' handle hends'
    rw [logins_cons_of_not_login hlogin]
    rcases mem_cons.mp he' with rfl | he'
    · obtain ⟨⟨record, hsession⟩, hrevoked⟩ := hends handle hends'
      obtain ⟨hget, hhandle, -⟩ := session_eq_ok.mp hsession
      obtain ⟨-, hgeneration, -⟩ := h.opened _ _ hget
      rw [hhandle] at hgeneration
      exact ⟨hgeneration, fun record' hget' _ => hrevoked record' hget'⟩
    · obtain ⟨hgeneration, hrevoked⟩ := h.ended e' he' handle hends'
      refine ⟨hgeneration, fun record' hget' hhandle' => ?_⟩
      obtain ⟨record, hget, hnarrowed⟩ := hattenuated.sessions _ record' hget'
      exact hnarrowed.revoked (hrevoked record hget (hnarrowed.handle.symm.trans hhandle'))

/-- The generation after a login. -/
theorem next_generation (n : ℕ) : max ((n % (2 ^ 32 - 1) + 1 + 1) % 2 ^ 32) 1 = (n + 1) % (2 ^ 32 - 1) + 1 := by
  omega

/-- A login: the new session has a generation that no session of its slot had before. -/
theorem Inv.login (h : Inv past c) (huntouched : Stands c c') {user : UserRecord} (huser : user ∈ c.users.values) {slot : ℕ}
    (hslot : slot < maxSessions) {record : SessionRecord} (hopened : Opened c c' user slot record) (hbefore : e.before = c)
    (hreturns : e.Returns record.handle) (hresponse : e.response.user = user.id)
    (hcount : logins slot (e :: past) < 2 ^ 32) : Inv (e :: past) c' := by
  have hhandle : record.handle.slot = slot := by rw [hopened.handle]
  have hlogins : ∀ other, logins other (e :: past) = logins other past + if other = slot then 1 else 0 := by
    intro other
    rw [logins_cons_of_login hreturns, hhandle]
  have hroom : logins slot past + 1 < 2 ^ 32 := by
    rw [hlogins, if_pos rfl] at hcount
    exact hcount
  have hgeneration : record.handle.generation = logins slot past + 1 := by
    rw [hopened.handle, h.generations slot hslot, Nat.mod_eq_of_lt (by omega)]
  have hoperation : e.request.operation = .login := (e.succeeds_iff.mp hreturns.1).1
  refine ⟨huntouched.known, ?_, ?_, ?_, h.claims_step huntouched.claimed fun hclaim => ?_, h.admins_step fun hadmin => ?_⟩
  · intro other hother
    rw [hopened.generations, hlogins, Vector.toList_setIfInBounds, getD_eq_getElem?_getD, getElem?_set]
    by_cases heq : slot = other
    · subst heq
      rw [if_pos rfl, if_pos (by rwa [Vector.length_toList]), if_pos rfl, h.generations slot hslot, Option.getD_some,
        next_generation]
    · rw [if_neg heq, if_neg (Ne.symm heq), ← getD_eq_getElem?_getD, h.generations other hother]
      rfl
  · intro other found hget
    rw [hopened.sessions, Slots.get_put] at hget
    split at hget
    · rename_i heq
      obtain rfl := Option.some.inj hget
      obtain ⟨user', huser', hsame⟩ := huntouched.users user huser
      refine ⟨hhandle.trans heq.1.symm, ?_, e, mem_cons_self, user, hreturns, hresponse.trans hopened.owner.symm,
        hbefore ▸ huser, hopened.owner.symm, fun x hx _ => hbefore ▸ hopened.confined x hx, user', huser', hsame⟩
      rw [hgeneration, heq.1, hlogins, if_pos rfl]
    · obtain ⟨hplace, hbound, login, hmem, owner, horigin⟩ := h.opened other found hget
      exact ⟨hplace, le_trans hbound (logins_le_cons e other past), login, mem_cons_of_mem _ hmem, owner,
        horigin.step huntouched (.refl found)⟩
  · intro e' he' handle hends
    rcases mem_cons.mp he' with rfl | he'
    · rcases hends.1 with hend | hend <;> rw [(e'.succeeds_iff.mp hend).1] at hoperation <;> cases hoperation
    obtain ⟨hbound, hrevoked⟩ := h.ended e' he' handle hends
    refine ⟨le_trans hbound (logins_le_cons e _ past), fun found hget heq => ?_⟩
    rw [hopened.sessions, Slots.get_put] at hget
    split at hget
    · obtain rfl := Option.some.inj hget
      rw [← heq, hgeneration, hhandle] at hbound
      exact absurd hbound (Nat.not_succ_le_self _)
    · exact hrevoked found hget heq
  · rw [(e.succeeds_iff.mp hclaim).1] at hoperation
    cases hoperation
  · obtain ⟨hadmin, -⟩ := hadmin
    rw [hoperation] at hadmin
    cases hadmin

end Step

lemma Reached.inv {hash : PasswordHash} {past : List Exchange} {c : UserCatalog} (h : Reached hash past c)
    (hcount : ∀ slot, logins slot past < 2 ^ 32) : Inv past c := by
  induction h with
  | start => exact inv_start
  | @step past c fill request _ ih =>
    have hinv := ih fun slot => lt_of_le_of_lt (logins_le_cons _ slot past) (hcount slot)
    have hgenerations : ∀ slot < maxSessions, c.sessionGenerations.toList.getD slot 0 ≠ 0 := by
      intro slot hslot
      rw [hinv.generations slot hslot]
      exact Nat.succ_ne_zero _
    rcases handle_spec hash fill hinv.known hgenerations request with ⟨hok, hdone⟩ | ⟨hrefused, huntouched, hattenuated⟩
    · rcases hdone.sessions with ⟨hlogin, hattenuated⟩ | ⟨hlogin, user, huser, slot, hslot, record, hopened, huserId, hsession⟩
      · refine hinv.attenuated hdone.stands hattenuated ?_ ?_ ?_ ?_
        · exact eq_false_iff.mpr fun h => hlogin ((Exchange.succeeds_iff _).mp h).1
        · rintro handle ⟨hends, rfl⟩
          exact hdone.ends (hends.imp (fun h => ((Exchange.succeeds_iff _).mp h).1) fun h => ((Exchange.succeeds_iff _).mp h).1)
        · exact fun hclaim => hdone.claim ((Exchange.succeeds_iff _).mp hclaim).1
        · exact fun hadmin => hdone.admin hadmin.1
      · exact hinv.login hdone.stands huser hslot hopened rfl ⟨(Exchange.succeeds_iff _).mpr ⟨hlogin, hok⟩, hsession⟩ huserId
          (hcount slot)
    · have hnot : ∀ operation, Exchange.succeeds ⟨c, request, (handle hash fill c request).1⟩ operation = false :=
        fun operation => eq_false_iff.mpr fun h => hrefused ((Exchange.succeeds_iff _).mp h).2
      refine hinv.attenuated (hinv.known.stands_of_untouched huntouched) hattenuated (hnot _) ?_ ?_ ?_
      · rintro handle ⟨hends | hends, -⟩ <;> rw [hnot] at hends <;> cases hends
      · intro hclaim
        rw [hnot] at hclaim
        cases hclaim
      · exact fun hadmin => absurd hadmin.2 hrefused

/-! ## Concrete runs -/

/-- The run that serves the requests, the last one first. -/
def served : List UserRequest → List Exchange × UserCatalog
  | [] => ([], .new)
  | request :: earlier =>
    match served earlier with
    | (past, c) =>
      (⟨c, request, (handle plainHash (.ok (Bytes.zeros _)) c request).1⟩ :: past,
        (handle plainHash (.ok (Bytes.zeros _)) c request).2)

lemma reached_served (requests : List UserRequest) : Reached plainHash (served requests).1 (served requests).2 := by
  induction requests with
  | nil => exact .start
  | cons request earlier ih => exact ih.step _ request

lemma length_served (requests : List UserRequest) : (served requests).1.length = requests.length := by
  induction requests with
  | nil => rfl
  | cons request earlier ih => exact congrArg (· + 1) ih

lemma logins_served {requests : List UserRequest} (h : requests.length < 2 ^ 32) (slot : ℕ) :
    logins slot (served requests).1 < 2 ^ 32 := by
  refine lt_of_le_of_lt countP_le_length ?_
  rw [length_served]
  exact h

/-- A claim, a login and a logout. -/
def visit : List UserRequest :=
  [{ plainRequest .logout [] [] with session := ⟨0, 1⟩ }, plainRequest .login [97] [98], plainRequest .claim [97] [98]]

/-- A claim with the home `{5, 0}`, which is not valid, and a second user who is given the role of the administrator. -/
def strayHome : List UserRequest :=
  [plainRequest .login [99] [98],
    { plainRequest .assignRole [] [] with session := ⟨0, 1⟩, user := ⟨2, 1⟩, role := ⟨1, 1⟩ },
    { plainRequest .create [99] [98] with session := ⟨0, 1⟩ },
    plainRequest .login [97] [98],
    { plainRequest .claim [97] [98] with root := ⟨5, 0⟩ }]

end LogOS.User
