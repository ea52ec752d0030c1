import LogOS.Abi
import LogOS.User.Catalog

/-!
# The lock screen

The login form says that a submission is under way, and takes no input while it does; the request of that submission waits
in the loop of the service until the shell takes it.  The two are tied together by nothing but the order of the loop: hiding
the screen, or a send that fails for good, drops the request and leaves the form as it is.  A log beside the state keeps the
submissions, the requests the shell took and the responses, newest first.
-/

namespace LogOS.User.Lock

open Abi

/-! ## The form -/

def maxFieldBytes : ℕ := 32

/-- The texts of the controls, and the part of the form's state that decides whether it can be submitted. -/
structure LoginForm where
  username : List UInt8
  password : List UInt8
  confirmPassword : List UInt8
  valid : Bool
  submitting : Bool
  claim : Bool
  deriving DecidableEq, Repr

inductive LockScreenField where
  | username | password | confirmPassword | submit
  deriving DecidableEq, Repr

namespace LoginForm

def control (f : LoginForm) : LockScreenField → List UInt8
  | .username => f.username
  | .password => f.password
  | .confirmPassword => f.confirmPassword
  | .submit => []

def setControl (f : LoginForm) (field : LockScreenField) (bytes : List UInt8) : LoginForm :=
  match field with
  | .username => { f with username := bytes }
  | .password => { f with password := bytes }
  | .confirmPassword => { f with confirmPassword := bytes }
  | .submit => f

def new : LoginForm := ⟨[], [], [], false, false, false⟩

def revalidate (f : LoginForm) : LoginForm :=
  { f with valid := !f.username.isEmpty && !f.password.isEmpty &&
      (!f.claim || (!f.confirmPassword.isEmpty && f.confirmPassword == f.password)) }

def setClaimMode (claim : Bool) (f : LoginForm) : LoginForm := revalidate { f with claim := claim }

def beginSubmission (f : LoginForm) : Bool × LoginForm :=
  if f.submitting then (false, f)
  else if f.revalidate.valid then (true, { f.revalidate with submitting := true })
  else (false, f.revalidate)

def completeSubmission (f : LoginForm) : LoginForm := { f with submitting := false }

def clearPassword (f : LoginForm) : LoginForm := revalidate { f with password := [], confirmPassword := [] }

end LoginForm

/-! ## The screen -/

inductive LockScreenMode where
  | claim | login
  deriving DecidableEq, Repr

def LockScreenMode.operation : LockScreenMode → UserOperation
  | claim => .claim
  | login => .login

inductive LockScreenAction where
  | changed | submit (operation : UserOperation) | ignored
  deriving DecidableEq, Repr

structure LockScreen where
  mode : LockScreenMode
  field : LockScreenField
  form : LoginForm
  deriving DecidableEq, Repr

/-- What an input message comes to, once the component it goes to has answered: the values an input field reports as changed,
and whether a component lets a submission through. -/
inductive LockInput where
  | edit (values : List (List UInt8))
  | move (forward : Bool)
  | enter (submitted : Bool)
  | pointerDown (target : Option LockScreenField) (clicked : Bool)
  | other

namespace LockScreen

def new : LockScreen := ⟨.login, .username, .new⟩

def resetFields (l : LockScreen) : LockScreen :=
  { l with form := LoginForm.new.setClaimMode (l.mode = .claim), field := .username }

def setUnclaimed (l : LockScreen) : LockScreen := resetFields { l with mode := .claim }

def setLocked (l : LockScreen) : LockScreen := resetFields { l with mode := .login }

def isAsciiGraphic (b : UInt8) : Bool := 0x21 ≤ b && b ≤ 0x7e

def validUsername (bytes : List UInt8) : Bool :=
  !bytes.isEmpty && bytes.all fun b =>
    (0x61 ≤ b && b ≤ 0x7a) || (0x30 ≤ b && b ≤ 0x39) || b == 0x2d || b == 0x5f || b == 0x2e

def setComponentValue (l : LockScreen) (bytes : List UInt8) : Bool × LockScreen :=
  if maxFieldBytes < bytes.length || bytes.any (!isAsciiGraphic ·) then (false, l)
  else if l.field = .username && !bytes.isEmpty && !validUsername bytes then (false, l)
  else if l.field = .submit || l.form.control l.field == bytes then (false, l)
  else (true, { l with form := (l.form.setControl l.field bytes).revalidate })

def setComponentValues : List (List UInt8) → LockScreen → Bool × LockScreen
  | [], l => (false, l)
  | bytes :: values, l =>
    let (changed, l) := l.setComponentValue bytes
    let (later, l) := setComponentValues values l
    (changed || later, l)

def moveField (l : LockScreen) (forward : Bool) : LockScreen :=
  { l with field := match l.mode, l.field, forward with
    | .claim, .username, true => .password
    | .claim, .password, true => .confirmPassword
    | .claim, .confirmPassword, true => .submit
    | .claim, .submit, false => .confirmPassword
    | .claim, .confirmPassword, false => .password
    | .login, .username, true => .password
    | .login, .password, true => .submit
    | .login, .submit, false => .password
    | .login, .confirmPassword, _ => .password
    | _, .submit, true => .submit
    | _, .password, false => .username
    | _, .username, false => .username }

def submit (l : LockScreen) : LockScreenAction × LockScreen :=
  if l.form.submitting then (.ignored, l)
  else match l.form.beginSubmission with
  | (true, form) => (.submit l.mode.operation, { l with form := form })
  | (false, form) => (.changed, { l with form := form })

/-- The messages of the keyboard (`input`) and of the pointer (`pointer_input`). -/
def input (l : LockScreen) (message : LockInput) : LockScreenAction × LockScreen :=
  if l.form.submitting then (.ignored, l)
  else match message with
  | .edit values => let (changed, l) := setComponentValues values l; (if changed then .changed else .ignored, l)
  | .move forward => (.changed, l.moveField forward)
  | .enter submitted => if submitted then l.submit else (.ignored, l)
  | .pointerDown none _ => (.ignored, l)
  | .pointerDown (some .submit) clicked =>
    if clicked then submit { l with field := .submit } else (.ignored, { l with field := .submit })
  | .pointerDown (some target) _ => (.changed, { l with field := target })
  | .other => (.ignored, l)

def clearPassword (l : LockScreen) : LockScreen := { l with form := l.form.clearPassword }

def cancelSubmission (l : LockScreen) : LockScreen := { l with form := l.form.completeSubmission }

def applyStatus (status : UserStatus) (l : LockScreen) : LockScreen :=
  let l := clearPassword { l with form := l.form.completeSubmission }
  match status with
  | .unclaimed => l.setUnclaimed
  | .badCredentials => { l with field := .password }
  | .ok => l.setLocked
  | _ => l

end LockScreen

/-! ## The loop -/

def newRequest (operation : UserOperation) (requestId : ℕ) : UserRequest :=
  ⟨operation, requestId, .empty, .empty, .empty, .empty, .empty, .none, 0, List.replicate userMaxUserNameBytes 0, 0,
    List.replicate userMaxPasswordBytes 0⟩

def setName (name : List UInt8) (request : UserRequest) : Option UserRequest :=
  if name.isEmpty || userMaxUserNameBytes < name.length then none
  else some { request with
    name := name ++ List.replicate (userMaxUserNameBytes - name.length) 0, nameLen := name.length }

def setPassword (password : List UInt8) (request : UserRequest) : Option UserRequest :=
  if password.isEmpty || userMaxPasswordBytes < password.length then none
  else some { request with
    password := password ++ List.replicate (userMaxPasswordBytes - password.length) 0, passwordLen := password.length }

/-- What the log keeps: a submission with the form it was made from, a request the shell took, a response. -/
inductive Happening where
  | submit (form : LoginForm) (request : UserRequest)
  | accepted (request : UserRequest)
  | response
  deriving DecidableEq, Repr

structure Loop where
  lock : LockScreen
  visible : Bool
  pendingAuth : Option UserRequest
  log : List Happening
  deriving DecidableEq, Repr

namespace Loop

def start : Loop := ⟨.new, true, none, []⟩

/-- A `Section` hook. -/
def sectionHook (s : Loop) (shouldShow : Bool) : Loop :=
  if shouldShow && !s.visible then { s with visible := true }
  else if !shouldShow && s.visible then { s with visible := false, pendingAuth := none }
  else s

/-- The waiting request is sent; `status` is what the send answers. -/
def send (status : IpcStatus) (s : Loop) : Loop :=
  match s.pendingAuth with
  | none => s
  | some request =>
    match status with
    | .ok => { s with pendingAuth := none, log := .accepted request :: s.log }
    | .full => s
    | _ => { s with pendingAuth := none }

def respond (s : Loop) (status : UserStatus) : Loop :=
  { s with lock := s.lock.applyStatus status, log := .response :: s.log }

/-- An input message, with the number `next_id` has for a request. -/
def event (s : Loop) (message : LockInput × ℕ) : Loop :=
  match s.lock.input message.1 with
  | (.submit operation, lock) =>
    match (setName lock.form.username (newRequest operation message.2)).bind (setPassword lock.form.password) with
    | some request =>
      { s with lock := lock.clearPassword, pendingAuth := some request, log := .submit lock.form request :: s.log }
    | none => { s with lock := lock.cancelSubmission }
  | (_, lock) => { s with lock := lock }

end Loop

/-- What one turn of the loop meets: hooks, the answer to a send, responses and input. -/
structure Round where
  hooks : List Bool
  status : IpcStatus
  responses : List UserStatus
  events : List (LockInput × ℕ)

def Loop.round (s : Loop) (r : Round) : Loop :=
  let s := r.responses.foldl respond ((r.hooks.foldl Loop.sectionHook s).send r.status)
  if s.visible && s.pendingAuth.isNone then r.events.foldl event s else s

/-- The screen is not hidden while a request waits, and the send of a request does not fail for good. -/
def Round.Orderly (s : Loop) (r : Round) : Prop :=
  (s.pendingAuth ≠ none → false ∉ r.hooks) ∧ (r.status = .ok ∨ r.status = .full)

def Orderly : Loop → List Round → Prop
  | _, [] => True
  | s, r :: rounds => r.Orderly s ∧ Orderly (s.round r) rounds

/-! ## What the log shows -/

/-- The request is the one of the form, and a claim repeats its password. -/
structure Built (form : LoginForm) (request : UserRequest) : Prop where
  name : request.name.take request.nameLen = form.username
  password : request.password.take request.passwordLen = form.password
  confirmed : request.operation = .claim → form.confirmPassword = form.password

def submitted (log : List Happening) : List (LoginForm × UserRequest) :=
  log.filterMap fun | .submit form request => some (form, request) | _ => none

def accepted (log : List Happening) : List UserRequest := log.filterMap fun | .accepted request => some request | _ => none

/-- The requests the shell took are, one for one and in order, requests of submissions. -/
structure Accounted (log : List Happening) : Prop where
  accepted : (accepted log).Sublist ((submitted log).map (·.2))
  built : ∀ form request, .submit form request ∈ log → Built form request

/-- The submission under way still waits to be sent, or the shell has its request and has not answered. -/
def Served (s : Loop) : Prop := ∃ form request,
  (s.pendingAuth = some request ∧ s.log.head? = some (.submit form request)) ∨
    (s.pendingAuth = none ∧ s.log.take 2 = [.accepted request, .submit form request])

/-- How the log comes about, with the request that waits: a submission when none waits, its acceptance, and responses
at any time. -/
inductive Conversation : Option UserRequest → List Happening → Prop
  | start : Conversation none []
  | submit {form request log} : Conversation none log → Built form request →
      Conversation (some request) (.submit form request :: log)
  | accept {request log} : Conversation (some request) log → Conversation none (.accepted request :: log)
  | response {pending log} : Conversation pending log → Conversation pending (.response :: log)

/-- A screen that is hidden before the shell has taken the request: the form goes on submitting a request that is gone. -/
theorem hidden_submission_stuck :
    let login : Round := ⟨[], .ok, [], [(.edit [[0x61]], 0), (.move true, 0), (.edit [[0x62]], 0), (.enter true, 1)]⟩
    let s := [login, ⟨[], .full, [], []⟩, ⟨[false, true], .ok, [], []⟩].foldl Loop.round .start
    s.lock.form.submitting = true ∧ s.pendingAuth = none ∧ accepted s.log = [] := by
  decide +kernel

/-! ## The form along the loop -/

variable {s : Loop} {l : LockScreen} {log : List Happening} {pending : Option UserRequest} {request : UserRequest}

/-- The form asks for a confirmation exactly when the screen is in claim mode. -/
def InStep (l : LockScreen) : Prop := l.form.claim = decide (l.mode = .claim)

lemma setComponentValue_spec (l : LockScreen) (bytes : List UInt8) :
    (l.setComponentValue bytes).2.form.submitting = l.form.submitting ∧
      (InStep l → InStep (l.setComponentValue bytes).2) := by
  have hset : ∀ field, (l.form.setControl field bytes).submitting = l.form.submitting ∧
      (l.form.setControl field bytes).claim = l.form.claim := by
    intro field
    cases field <;> exact ⟨rfl, rfl⟩
  unfold LockScreen.setComponentValue
  split_ifs
  · exact ⟨rfl, id⟩
  · exact ⟨rfl, id⟩
  · exact ⟨rfl, id⟩
  · exact ⟨(hset l.field).1, (hset l.field).2.trans⟩

lemma setComponentValues_spec (values : List (List UInt8)) (l : LockScreen) :
    (LockScreen.setComponentValues values l).2.form.submitting = l.form.submitting ∧
      (InStep l → InStep (LockScreen.setComponentValues values l).2) := by
  induction values generalizing l with
  | nil => exact ⟨rfl, id⟩
  | cons bytes values ih =>
    obtain ⟨hsub, hstep⟩ := setComponentValue_spec l bytes
    obtain ⟨hsub', hstep'⟩ := ih (l.setComponentValue bytes).2
    exact ⟨hsub'.trans hsub, hstep' ∘ hstep⟩

lemma inStep_applyStatus (status : UserStatus) (h : InStep l) :
    InStep (l.applyStatus status) ∧ (l.applyStatus status).form.submitting = false := by
  cases status <;> first | exact ⟨h, rfl⟩ | exact ⟨rfl, rfl⟩

/-- What an input message does to a form that is open: it leaves it open, or submits it, once it has passed its check. -/
structure Reacts (mode : LockScreenMode) (answer : LockScreenAction × LockScreen) : Prop where
  inStep : InStep answer.2
  form : (∀ operation, answer.1 ≠ .submit operation) ∧ answer.2.form.submitting = false ∨
    answer.1 = .submit mode.operation ∧ answer.2.form.submitting = true ∧
      (mode = .claim → answer.2.form.confirmPassword = answer.2.form.password)

lemma reacts_submit (h : InStep l) (hopen : l.form.submitting = false) : Reacts l.mode l.submit := by
  unfold LockScreen.submit LoginForm.beginSubmission
  simp only [hopen]
  by_cases hvalid : l.form.revalidate.valid
  · rw [if_pos hvalid]
    refine ⟨h, .inr ⟨rfl, rfl, fun hclaim => ?_⟩⟩
    have hc : l.form.claim = true := by rw [h, hclaim]; rfl
    simp only [LoginForm.revalidate, hc, Bool.not_true, Bool.false_or, Bool.and_eq_true, beq_iff_eq] at hvalid
    exact hvalid.2.2
  · rw [if_neg hvalid]
    exact ⟨h, .inl ⟨by simp, hopen⟩⟩

lemma reacts_input (message : LockInput) (h : InStep l) (hopen : l.form.submitting = false) :
    Reacts l.mode (l.input message) := by
  have hother : ∀ {action : LockScreenAction} {field : LockScreenField}, (∀ operation, action ≠ .submit operation) →
      Reacts l.mode (action, { l with field := field }) := fun hno => ⟨h, .inl ⟨hno, hopen⟩⟩
  unfold LockScreen.input
  rw [if_neg (by simp [hopen])]
  split
  · next values =>
    obtain ⟨hsub, hstep⟩ := setComponentValues_spec values l
    refine ⟨hstep h, .inl ⟨fun _ => ?_, hsub.trans hopen⟩⟩
    dsimp only
    split <;> simp
  · exact hother (by simp)
  · split
    · exact reacts_submit h hopen
    · exact hother (by simp)
  · exact hother (by simp)
  · split
    · exact reacts_submit (l := { l with field := .submit }) h hopen
    · exact hother (by simp)
  · exact hother (by simp)
  · exact hother (by simp)

lemma built_of_set {form : LoginForm} {operation : UserOperation} {id : ℕ}
    (h : (setName form.username (newRequest operation id)).bind (setPassword form.password) = some request)
    (hclaim : operation = .claim → form.confirmPassword = form.password) : Built form request := by
  obtain ⟨named, hname, hpassword⟩ := Option.bind_eq_some_iff.mp h
  simp only [setName, setPassword, Option.ite_none_left_eq_some, Option.some.injEq] at *
  obtain ⟨-, rfl⟩ := hname
  obtain ⟨-, rfl⟩ := hpassword
  exact ⟨by simp, by simp, hclaim⟩

/-! ## The conversation with the shell -/

lemma Conversation.accounted (h : Conversation pending log) :
    Accounted log ∧ ∀ r ∈ pending, ((r :: accepted log).Sublist ((submitted log).map (·.2))) := by
  induction h with
  | start => exact ⟨⟨.slnil, by simp⟩, by simp⟩
  | submit _ hbuilt ih =>
    refine ⟨⟨ih.1.accepted.cons _, fun form request hm => ?_⟩, fun r hr => ?_⟩
    · rcases List.mem_cons.mp hm with heq | hm
      · cases heq
        exact hbuilt
      · exact ih.1.built form request hm
    · cases hr
      exact ih.1.accepted.cons_cons _
  | accept _ ih => exact ⟨⟨ih.2 _ rfl, fun form request hm => ih.1.built form request (by simpa using hm)⟩, by simp⟩
  | response _ ih => exact ⟨⟨ih.1.accepted, fun form request hm => ih.1.built form request (by simpa using hm)⟩, ih.2⟩

/-- The invariant of the loop. -/
structure Inv (s : Loop) : Prop where
  inStep : InStep s.lock
  talk : Conversation s.pendingAuth s.log
  served : s.lock.form.submitting = true → Served s

lemma Inv.start : Inv .start := ⟨rfl, .start, by simp [Loop.start, LockScreen.new, LoginForm.new]⟩

lemma Inv.sections (h : Inv s) {hooks : List Bool} (ho : s.pendingAuth ≠ none → false ∉ hooks) :
    Inv (hooks.foldl Loop.sectionHook s) := by
  refine (List.foldlRecOn hooks Loop.sectionHook (motive := fun s' => Inv s' ∧ s'.pendingAuth = s.pendingAuth) ⟨h, rfl⟩ ?_).1
  rintro s' ⟨h', hp⟩ shown hm
  unfold Loop.sectionHook
  split_ifs with h1 h2
  · exact ⟨⟨h'.inStep, h'.talk, h'.served⟩, hp⟩
  · have hnone : s.pendingAuth = none := by
      by_contra hne
      exact ho hne (by simp_all)
    rw [hnone] at hp
    exact ⟨⟨h'.inStep, hp ▸ h'.talk, fun hs => by simpa only [Served, hp] using h'.served hs⟩, hnone.symm⟩
  · exact ⟨h', hp⟩

lemma Inv.send (h : Inv s) {status : IpcStatus} (hstatus : status = .ok ∨ status = .full) : Inv (s.send status) := by
  unfold Loop.send
  split
  · exact h
  next request hp =>
  rcases hstatus with rfl | rfl
  · refine ⟨h.inStep, .accept (hp ▸ h.talk), fun hs => ?_⟩
    obtain ⟨form, request', ⟨hp', hlog⟩ | ⟨hp', -⟩⟩ := h.served hs
    · obtain rfl : request = request' := by simpa [hp] using hp'
      obtain ⟨rest, hrest⟩ := List.head?_eq_some_iff.mp hlog
      exact ⟨form, request, .inr ⟨rfl, by simp [hrest]⟩⟩
    · rw [hp] at hp'
      cases hp'
  · exact h

lemma Inv.respond (h : Inv s) (status : UserStatus) : Inv (s.respond status) := by
  obtain ⟨hstep, hopen⟩ := inStep_applyStatus status h.inStep
  exact ⟨hstep, .response h.talk, fun hs => absurd (hs.symm.trans hopen) (by simp)⟩

/-- While messages are read, a request waits only where the form is submitting. -/
theorem Inv.event (h : Inv s) (hready : s.pendingAuth = none ∨ s.lock.form.submitting = true) (message : LockInput × ℕ) :
    Inv (s.event message) ∧ ((s.event message).pendingAuth = none ∨ (s.event message).lock.form.submitting = true) := by
  unfold Loop.event
  by_cases hs : s.lock.form.submitting = true
  · rw [show s.lock.input message.1 = (.ignored, s.lock) from if_pos hs]
    exact ⟨h, hready⟩
  obtain ⟨hstep, hcase⟩ := reacts_input message.1 h.inStep (by simpa using hs)
  have hp : s.pendingAuth = none := hready.resolve_right hs
  rcases hcase with ⟨hno, hopen⟩ | ⟨hsub, hsubmitting, hclaim⟩
  · split
    · next operation lock heq => exact absurd (congrArg Prod.fst heq) (hno operation)
    · next heq =>
      rw [heq] at hstep hopen
      exact ⟨⟨hstep, h.talk, fun hs => absurd (hs.symm.trans hopen) (by simp)⟩, .inl hp⟩
  · split
    · next operation lock heq =>
      rw [heq] at hsub hstep hsubmitting hclaim
      obtain rfl : operation = s.lock.mode.operation := by simpa using hsub
      split
      · next request hset =>
        have hbuilt : Built lock.form request := built_of_set hset fun hop => hclaim (by
          cases hm : s.lock.mode with
          | claim => rfl
          | login => rw [hm] at hop; cases hop)
        exact ⟨⟨hstep, .submit (hp ▸ h.talk) hbuilt, fun _ => ⟨lock.form, request, .inl ⟨rfl, rfl⟩⟩⟩, .inr hsubmitting⟩
      · exact ⟨⟨hstep, h.talk, fun hs => (by cases hs)⟩, .inl hp⟩
    · next action lock hno heq => exact absurd (congrArg Prod.fst heq |>.symm.trans hsub) (hno _)

lemma Inv.round {r : Round} (h : Inv s) (ho : r.Orderly s) : Inv (s.round r) := by
  have hread := List.foldlRecOn r.responses Loop.respond ((h.sections ho.1).send ho.2) fun _ h status _ => h.respond status
  unfold Loop.round
  dsimp only
  split_ifs with hin
  · simp only [Bool.and_eq_true, Option.isNone_iff_eq_none] at hin
    exact (List.foldlRecOn r.events Loop.event
      (motive := fun s => Inv s ∧ (s.pendingAuth = none ∨ s.lock.form.submitting = true)) ⟨hread, .inl hin.2⟩
      fun _ h message _ => h.1.event h.2 message).1
  · exact hread

lemma Inv.run {rounds : List Round} (h : Inv s) (ho : Orderly s rounds) : Inv (rounds.foldl Loop.round s) := by
  induction rounds generalizing s with
  | nil => exact h
  | cons r rounds ih => exact ih (h.round ho.1) ho.2

/-- **The lock screen is never stuck**: in every run in which no request is dropped, a form that is submitting has its
request waiting to be sent, or in the hands of a shell that has not answered; and the requests the shell took are those of
as many submissions, with the name and the password the form held. -/
theorem lockScreen_never_stuck (rounds : List Round) (ho : Orderly .start rounds) :
    let s := rounds.foldl Loop.round .start
    (s.lock.form.submitting = true → Served s) ∧ Accounted s.log := by
  have h := Inv.start.run ho
  exact ⟨h.served, h.talk.accounted.1⟩

theorem lockScreen_never_stuck_login :
    let login : Round := ⟨[], .ok, [], [(.edit [[0x61]], 0), (.move true, 0), (.edit [[0x62]], 0), (.enter true, 1)]⟩
    let s := [login, ⟨[], .full, [], []⟩, ⟨[], .ok, [], []⟩].foldl Loop.round .start
    s.lock.form.submitting = true ∧ s.pendingAuth = none ∧
      ((s.lock.form.submitting = true → Served s) ∧ Accounted s.log) :=
  ⟨by decide +kernel, by decide +kernel, lockScreen_never_stuck _ ⟨⟨fun _ => List.not_mem_nil, .inl rfl⟩,
    ⟨fun _ => List.not_mem_nil, .inr rfl⟩, ⟨fun _ => List.not_mem_nil, .inl rfl⟩, trivial⟩⟩

end LogOS.User.Lock
