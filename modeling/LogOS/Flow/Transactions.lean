import LogOS.Flow.StorageClient

/-!
# Transactions of the storage client

What the storage client says in one command: a transaction is begun, carries at most one operation, and is ended once, with
the identifier it was given; a staged write sends its data in order and is ended by its own pair of requests.  This holds as
long as no command is cancelled while it holds a transaction.  A cancelled client answers every response with another plain
abort, and it does so for ever.
-/

namespace LogOS.Flow

open Abi StorageClient StorageApiRequest List Option

/-! ## Reading a conversation -/

namespace Outcome

/-- The transport took the request. -/
def accepted : Outcome → Bool
  | .refused _ => false
  | _ => true

/-- The peer sent something back. -/
def answered : Outcome → Bool
  | .garbled | .reply _ => true
  | _ => false

end Outcome

/-- The exchange went through, or still may. -/
def Exchange.sound (exchange : Exchange) : Bool :=
  match exchange.outcome with
  | .waiting => true
  | .reply response => response.requestId == exchange.sent.requestId
  | _ => false

def Faultless (log : List Exchange) : Prop := ∀ exchange ∈ log, exchange.sound = true

/-- The requests sent, in the order in which they were sent. -/
def requests : List Exchange → List StorageApiRequest
  | [] => []
  | exchange :: log => if exchange.outcome.accepted then requests log ++ [exchange.sent.request] else requests log

/-- The transaction an exchange opened. -/
def Exchange.opened (exchange : Exchange) : Option ℕ :=
  match exchange.outcome with
  | .reply response =>
    if (exchange.sent.request.operation = .begin ∨ exchange.sent.request.operation = .stageWriteBegin) ∧
        response.requestId = exchange.sent.requestId ∧ response.status = .ok ∧ response.transactionId ≠ 0 then
      some response.transactionId
    else none
  | _ => none

/-- The transaction that the first exchange opened. -/
def granted (log : List Exchange) : Option ℕ := log.getLast?.bind Exchange.opened

variable {request : StorageApiRequest} {id : ℕ} {exchange : Exchange} {c : StorageClient} {log past : List Exchange}

lemma requests_cons (h : exchange.outcome.accepted = true) :
    requests (exchange :: log) = requests log ++ [exchange.sent.request] := if_pos h

lemma mem_requests (hmem : exchange ∈ log) (h : exchange.outcome.accepted = true) :
    exchange.sent.request ∈ requests log := by
  induction log with
  | nil => cases hmem
  | cons other log ih =>
    rcases mem_cons.mp hmem with rfl | hmem
    · rw [requests_cons h]
      exact mem_append_right _ (mem_singleton_self _)
    · rw [requests]
      split
      · exact mem_append_left _ (ih hmem)
      · exact ih hmem

lemma granted_cons (h : granted log = some id) : granted (exchange :: log) = some id := by
  cases log with
  | nil => cases h
  | cons other log => exact h

/-- Only a request to begin opens a transaction. -/
theorem mem_requests_of_granted (h : granted log = some id) :
    ∃ request ∈ requests log, request.operation = .begin ∨ request.operation = .stageWriteBegin := by
  obtain ⟨exchange, hlast, hopened⟩ := bind_eq_some_iff.mp h
  unfold Exchange.opened at hopened
  split at hopened
  · rename_i response houtcome
    refine ⟨_, mem_requests (mem_of_getLast? hlast) ?_, (ite_none_right_eq_some.mp hopened).1.1⟩
    rw [houtcome]
    rfl
  · cases hopened

/-! ## The form of a conversation -/

def beginRequest : StorageApiRequest := ⟨.begin, 0, 0, 0, [], [], []⟩
def commitRequest (id : ℕ) : StorageApiRequest := ⟨.commit, 0, id, 0, [], [], []⟩
def abortRequest (id : ℕ) : StorageApiRequest := ⟨.abort, 0, id, 0, [], [], []⟩
def stageBeginRequest (path : List UInt8) : StorageApiRequest := ⟨.stageWriteBegin, 0, 0, 0, path, [], []⟩
def chunkRequest (id offset : ℕ) (piece : List UInt8) : StorageApiRequest := ⟨.stageWriteChunk, 0, id, offset, [], [], piece⟩
def stageCommitRequest (id : ℕ) : StorageApiRequest := ⟨.stageWriteCommit, 0, id, 0, [], [], []⟩
def stageAbortRequest (id : ℕ) : StorageApiRequest := ⟨.stageWriteAbort, 0, id, 0, [], [], []⟩

/-- The pieces of a staged write as requests, each one at the offset where the one before ended. -/
def chunkRequests (id : ℕ) : ℕ → List (List UInt8) → List StorageApiRequest
  | _, [] => []
  | offset, piece :: pieces => chunkRequest id offset piece :: chunkRequests id (offset + piece.length) pieces

lemma chunkRequests_append (id : ℕ) (pieces : List (List UInt8)) (piece : List UInt8) (offset : ℕ) :
    chunkRequests id offset (pieces ++ [piece]) =
      chunkRequests id offset pieces ++ [chunkRequest id (offset + pieces.flatten.length) piece] := by
  induction pieces generalizing offset with
  | nil => simp [chunkRequests]
  | cons first pieces ih => simp [chunkRequests, ih, add_assoc]

lemma operation_of_mem_chunkRequests {offset : ℕ} {pieces : List (List UInt8)}
    (h : request ∈ chunkRequests id offset pieces) : request.operation = .stageWriteChunk := by
  induction pieces generalizing offset with
  | nil => cases h
  | cons piece pieces ih =>
    rcases mem_cons.mp h with rfl | h
    · rfl
    · exact ih h

/-- A request made in a transaction. -/
def IsOperation (request : StorageApiRequest) : Prop :=
  request.operation ∈ [StorageApiOperation.createFile, .write, .remove, .rename]

/-- A transaction that is begun, carries at most one operation and is ended at most once, with its own identifier. -/
def Plain (log : List Exchange) : Prop :=
  requests log = [] ∨ requests log = [beginRequest] ∨
    ∃ id request last, granted log = some id ∧ IsOperation request ∧ request.transactionId = id ∧
      requests log = beginRequest :: request :: last ∧ (last = [] ∨ last = [commitRequest id] ∨ last = [abortRequest id])

/-- A staged write: the pieces sent are the beginning of the data, all of it where the write is committed. -/
def Staged (data : List UInt8) (log : List Exchange) : Prop :=
  requests log = [] ∨ ∃ path, requests log = [stageBeginRequest path] ∨
    ∃ id pieces last, granted log = some id ∧ requests log = stageBeginRequest path :: (chunkRequests id 0 pieces ++ last) ∧
      (∀ piece ∈ pieces, piece ≠ [] ∧ piece.length ≤ stageChunkBytes) ∧ pieces.flatten <+: data ∧
      (last = [] ∨ last = [stageAbortRequest id] ∨ (last = [stageCommitRequest id] ∧ pieces.flatten = data))

/-- Reads need no transaction. -/
def OnlyReads (log : List Exchange) : Prop :=
  ∀ request ∈ requests log, (request.operation = .list ∨ request.operation = .read) ∧ request.transactionId = 0

def Form (work : StorageWork) (data : List UInt8) (log : List Exchange) : Prop :=
  match work with
  | .list | .cat => OnlyReads log
  | .touchWrite => Staged data log
  | _ => Plain log

/-- The requests that end the transaction `id`. -/
def endings (id : ℕ) : List StorageApiRequest :=
  [commitRequest id, abortRequest id, stageCommitRequest id, stageAbortRequest id]

/-- The operation of the command fits a message. -/
def StorageClient.operationFits (c : StorageClient) : Bool := (c.operationRequest.encode 1).isSome

/-- What a conversation keeps to at any time, and what it has come to where the command is done. -/
structure Disciplined (c : StorageClient) (log : List Exchange) : Prop where
  form : Form c.work c.data log
  ok : c.done = true → c.result = okText → c.work ≠ .list → c.work ≠ .cat →
    ∃ exchange ∈ log, ∃ id response, granted log = some id ∧
      (exchange.sent.request = commitRequest id ∨ exchange.sent.request = stageCommitRequest id) ∧
      exchange.outcome = .reply response ∧ response.status = .ok
  aborted : ∀ exchange ∈ log, ∀ id, exchange.sent.request = abortRequest id ∨ exchange.sent.request = stageAbortRequest id →
    exchange.outcome.answered = true → c.done = true ∧ ∀ t, c.drive t = (false, c, t)
  closed : c.done = true → Faultless log → c.operationFits = true → ∀ id, granted log = some id →
    ∃ request ∈ endings id, (requests log).getLast? = some request

/-! ## What the phase tells about the past -/

variable {work : StorageWork} {data : List UInt8}

/-- The work that a phase belongs to. -/
def Suits (work : StorageWork) (phase : StoragePhase) : Prop :=
  match phase with
  | .begin | .operation | .commit | .abort => work ∈ [StorageWork.touch, .write, .remove, .move, .abortProof]
  | .stageBegin | .stageChunk | .stageCommit | .stageAbort => work = .touchWrite
  | .read => work = .cat
  | .list => work = .list
  | .idle => False

/-- The staged write has sent `pieces`, the first `count` bytes of its data. -/
structure Sent (id : ℕ) (path data : List UInt8) (count : ℕ) (pieces : List (List UInt8)) (past : List Exchange) : Prop where
  grant : granted past = some id
  said : requests past = stageBeginRequest path :: chunkRequests id 0 pieces
  sizes : ∀ piece ∈ pieces, piece ≠ [] ∧ piece.length ≤ stageChunkBytes
  flat : pieces.flatten = data.take count
  count_le : count ≤ data.length

/-- The exchanges that led to the phase of the client. -/
def Past (c : StorageClient) (past : List Exchange) : Prop :=
  match c.phase with
  | .begin => past = [] ∧ c.transactionId = 0
  | .operation => granted past = some c.transactionId ∧ requests past = [beginRequest]
  | .commit | .abort => granted past = some c.transactionId ∧ requests past = [beginRequest, c.operationRequest]
  | .stageBegin => past = [] ∧ c.transactionId = 0 ∧ c.cursor = 0
  | .stageChunk => c.cursor < c.data.length ∧ ∃ pieces, Sent c.transactionId c.path c.data c.cursor pieces past
  | .stageCommit => ∃ pieces, Sent c.transactionId c.path c.data c.data.length pieces past
  | .stageAbort => ∃ pieces count, Sent c.transactionId c.path c.data count pieces past
  | .read | .list => OnlyReads past ∧ c.transactionId = 0
  | .idle => False

lemma granted_ne_zero (h : granted log = some id) : id ≠ 0 := by
  obtain ⟨exchange, -, hopened⟩ := bind_eq_some_iff.mp h
  unfold Exchange.opened at hopened
  split at hopened
  · obtain ⟨hbegin, hid⟩ := ite_none_right_eq_some.mp hopened
    exact some.inj hid ▸ hbegin.2.2.2
  · cases hopened

lemma OnlyReads.not_granted (h : OnlyReads log) : granted log = none := by
  rw [eq_none_iff_forall_not_mem]
  intro id hid
  obtain ⟨request, hmem, hbegin⟩ := mem_requests_of_granted hid
  rcases (h request hmem).1 with hop | hop <;> rw [hop] at hbegin <;> simp at hbegin

/-- The client has an identifier exactly where a transaction was granted. -/
theorem Past.transactionId (h : Past c past) : (c.transactionId = 0 ∧ granted past = none ∧
        ((past = [] ∧ (c.phase = .begin ∨ c.phase = .stageBegin)) ∨ c.phase = .read ∨ c.phase = .list)) ∨
      (c.transactionId ≠ 0 ∧ granted past = some c.transactionId) := by
  have hsome : granted past = some c.transactionId → c.transactionId ≠ 0 ∧ granted past = some c.transactionId :=
    fun hgranted => ⟨granted_ne_zero hgranted, hgranted⟩
  unfold Past at h
  split at h <;> rename_i hphase
  · rw [h.1]
    exact .inl ⟨h.2, rfl, .inl ⟨rfl, .inl hphase⟩⟩
  · exact .inr (hsome h.1)
  · exact .inr (hsome h.1)
  · exact .inr (hsome h.1)
  · rw [h.1]
    exact .inl ⟨h.2.1, rfl, .inl ⟨rfl, .inr hphase⟩⟩
  · exact .inr (hsome h.2.choose_spec.grant)
  · exact .inr (hsome h.choose_spec.grant)
  · exact .inr (hsome h.choose_spec.choose_spec.grant)
  · exact .inl ⟨h.2, h.1.not_granted, .inr (.inl hphase)⟩
  · exact .inl ⟨h.2, h.1.not_granted, .inr (.inr hphase)⟩
  · exact absurd h id

lemma isOperation_operationRequest (h : Suits c.work .begin) : IsOperation c.operationRequest := by
  unfold IsOperation operationRequest
  revert h
  cases c.work <;> simp [Suits, operationOf]

lemma form_of_plain (hwork : Suits work .begin) (h : Plain log) : Form work data log := by
  cases work <;> simp_all [Form, Suits]

lemma form_of_operation {last : List StorageApiRequest} (hgranted : granted log = some c.transactionId)
    (hwork : Suits c.work .begin) (hlog : requests log = beginRequest :: c.operationRequest :: last)
    (hlast : last = [] ∨ last = [commitRequest c.transactionId] ∨ last = [abortRequest c.transactionId]) :
    Form c.work c.data log :=
  form_of_plain hwork (.inr (.inr ⟨_, _, last, hgranted, isOperation_operationRequest hwork, rfl, hlog, hlast⟩))

lemma piece_ne_nil (h : c.cursor < c.data.length) : c.piece ≠ [] := by
  have hlen : c.piece.length ≠ 0 := by
    simp only [piece, length_take, length_drop, stageChunkBytes]
    omega
  exact fun hnil => hlen (congrArg length hnil)

/-- A request without paths and with one piece of data at most fits a message. -/
theorem encode_small {operation : StorageApiOperation} {flags offset n : ℕ} (hn : n ≠ 0)
    (hshape : requestShapeIsValid operation [] [] data = true) (hlen : data.length ≤ stageChunkBytes) :
    encode ⟨operation, flags, id, offset, [], [], data⟩ n ≠ none := by
  simp only [stageChunkBytes] at hlen
  unfold encode
  split
  · rename_i hbad
    simp [hshape] at hbad
    omega
  · split
    · rename_i hlong
      simp [requestHeaderBytes, maxIpcBytes] at hlong
      omega
    · exact some_ne_none _

/-- Whether a request fits does not depend on its number. -/
theorem encode_number {n m : ℕ} (hn : n ≠ 0) (hm : m ≠ 0) (h : request.encode n = none) : request.encode m = none := by
  unfold encode at *
  simp only [hn, hm] at *
  split at h
  · rename_i hbig
    rw [if_pos hbig]
  rename_i hsmall
  rw [if_neg hsmall]
  split at h
  · rename_i hlong
    rw [if_pos hlong]
  · cases h

section Pieces

variable {count : ℕ} {path : List UInt8} {pieces : List (List UInt8)}

section

variable (h : Sent id path data count pieces past)
include h

lemma Sent.staged {last : List StorageApiRequest}
    (hgranted : granted log = some id) (hrequests : requests log = requests past ++ last)
    (hlast : last = [] ∨ last = [stageAbortRequest id] ∨ (last = [stageCommitRequest id] ∧ pieces.flatten = data)) :
    Staged data log := by
  refine .inr ⟨path, .inr ⟨id, pieces, last, hgranted, ?_, h.sizes, h.flat ▸ take_prefix _ _, hlast⟩⟩
  rw [hrequests, h.said]
  rfl

lemma Sent.unended : Staged data past := h.staged h.grant (append_nil _).symm (.inl rfl)

/-- The next piece of a staged write. -/
theorem Sent.append {piece : List UInt8}
    (hlog : requests log = requests past ++ [chunkRequest id count piece]) (hgranted : granted log = some id)
    (hpiece : piece = (data.drop count).take stageChunkBytes) (hmore : count < data.length) :
    Sent id path data (min (count + stageChunkBytes) data.length) (pieces ++ [piece]) log := by
  have hlen : piece.length = min stageChunkBytes (data.length - count) := by
    rw [hpiece, length_take, length_drop]
  refine ⟨hgranted, ?_, ?_, ?_, min_le_right _ _⟩
  · have hoffset : pieces.flatten.length = count := by
      rw [h.flat, length_take]
      exact Nat.min_eq_left h.count_le
    rw [hlog, h.said, chunkRequests_append, zero_add, hoffset]
    rfl
  · intro other hother
    rcases mem_append.mp hother with hother | hother
    · exact h.sizes other hother
    rw [mem_singleton.mp hother]
    refine ⟨?_, by omega⟩
    intro hnil
    rw [hnil, length_nil] at hlen
    simp only [stageChunkBytes] at hlen
    omega
  · rw [flatten_append, flatten_singleton, h.flat, hpiece, ← take_add, ← take_eq_take_min]

end

end Pieces

lemma OnlyReads.append (h : OnlyReads past) (hlog : requests log = requests past ++ [request])
    (hrequest : (request.operation = .list ∨ request.operation = .read) ∧ request.transactionId = 0) : OnlyReads log := by
  intro other hother
  rw [hlog] at hother
  rcases mem_append.mp hother with hother | hother
  · exact h other hother
  · rw [mem_singleton.mp hother]
    exact hrequest

lemma Past.form (h : Past c past) (hsuits : Suits c.work c.phase) : Form c.work c.data past := by
  unfold Past at h
  unfold Suits at hsuits
  split at h <;> rename_i hphase <;> rw [hphase] at hsuits <;> dsimp only at hsuits
  · refine form_of_plain hsuits (.inl ?_)
    rw [h.1]
    rfl
  · exact form_of_plain hsuits (.inr (.inl h.2))
  · exact form_of_operation h.1 hsuits h.2 (.inl rfl)
  · exact form_of_operation h.1 hsuits h.2 (.inl rfl)
  · rw [hsuits]
    refine .inl ?_
    rw [h.1]
    rfl
  · rw [hsuits]
    exact h.2.choose_spec.unended
  · rw [hsuits]
    exact h.choose_spec.unended
  · rw [hsuits]
    exact h.choose_spec.choose_spec.unended
  · rw [hsuits]
    exact h.1
  · rw [hsuits]
    exact h.1

/-- The request of the phase keeps the conversation in form, whatever becomes of it. -/
theorem Past.form_cons (h : Past c past) (hsuits : Suits c.work c.phase)
    (hcontent : c.content = some exchange.sent.request) (haccepted : exchange.outcome.accepted = true) :
    Form c.work c.data (exchange :: past) := by
  have hreq : requests (exchange :: past) = _ := requests_cons haccepted
  unfold Past at h
  unfold Suits at hsuits
  unfold content at hcontent
  split at h <;> rename_i hphase <;> rw [hphase] at hsuits hcontent <;> dsimp only at hsuits hcontent
  · refine form_of_plain hsuits (.inr (.inl ?_))
    rw [hreq, h.1, ← some.inj hcontent]
    rfl
  · refine form_of_operation (granted_cons h.1) hsuits ?_ (.inl rfl)
    rw [hreq, h.2, ← some.inj hcontent]
    rfl
  · refine form_of_operation (granted_cons h.1) hsuits ?_ (.inr (.inl rfl))
    rw [hreq, h.2, ← some.inj hcontent]
    rfl
  · refine form_of_operation (granted_cons h.1) hsuits ?_ (.inr (.inr rfl))
    rw [hreq, h.2, ← some.inj hcontent]
    rfl
  · rw [hsuits]
    refine .inr ⟨c.path, .inl ?_⟩
    rw [hreq, h.1, ← some.inj hcontent]
    rfl
  · obtain ⟨hmore, pieces, hsent⟩ := h
    have hnext := hsent.append (by rw [hreq, ← some.inj hcontent]; rfl) (granted_cons hsent.grant) rfl hmore
    rw [hsuits]
    exact hnext.unended
  · obtain ⟨pieces, hsent⟩ := h
    rw [hsuits]
    refine hsent.staged (granted_cons hsent.grant) hreq (.inr (.inr ⟨?_, ?_⟩))
    · rw [← some.inj hcontent]
      rfl
    · rw [hsent.flat, take_length]
  · obtain ⟨pieces, count, hsent⟩ := h
    rw [hsuits]
    refine hsent.staged (granted_cons hsent.grant) hreq (.inr (.inl ?_))
    rw [← some.inj hcontent]
    rfl
  · rw [hsuits]
    exact h.1.append hreq (by rw [← some.inj hcontent]; exact ⟨.inr rfl, rfl⟩)
  · rw [hsuits]
    exact h.1.append hreq (by rw [← some.inj hcontent]; exact ⟨.inl rfl, rfl⟩)

/-- No transaction has been aborted in the past of a phase. -/
theorem Past.not_aborted (h : Past c past) (hmem : request ∈ requests past) (id : ℕ)
    (habort : request = abortRequest id ∨ request = stageAbortRequest id) (hsuits : Suits c.work c.phase) : False := by
  have hop : request.operation = .abort ∨ request.operation = .stageWriteAbort := by
    rcases habort with rfl | rfl
    · exact .inl rfl
    · exact .inr rfl
  have hchunks : ∀ {id count pieces} {path data : List UInt8}, Sent id path data count pieces past → False := by
    intro id count pieces path data hsent
    rw [hsent.said] at hmem
    rcases mem_cons.mp hmem with rfl | hmem
    · simp [stageBeginRequest] at hop
    · rw [operation_of_mem_chunkRequests hmem] at hop
      simp at hop
  have hplain : Suits c.work .begin → requests past = [beginRequest, c.operationRequest] → False := by
    intro hwork hpast
    have hisOp := isOperation_operationRequest hwork
    rw [hpast] at hmem
    rcases mem_cons.mp hmem with rfl | hmem
    · simp [beginRequest] at hop
    · rw [mem_singleton.mp hmem] at hop
      rcases hop with hop | hop <;> simp [IsOperation, hop] at hisOp
  unfold Past at h
  split at h <;> rename_i hphase
  · rw [h.1] at hmem
    cases hmem
  · rw [h.2, mem_singleton] at hmem
    simp [hmem, beginRequest] at hop
  · rw [hphase] at hsuits
    exact hplain hsuits h.2
  · rw [hphase] at hsuits
    exact hplain hsuits h.2
  · rw [h.1] at hmem
    cases hmem
  · exact hchunks h.2.choose_spec
  · exact hchunks h.choose_spec
  · exact hchunks h.choose_spec.choose_spec
  · rcases (h.1 request hmem).1 with hread | hread <;> simp [hread] at hop
  · rcases (h.1 request hmem).1 with hread | hread <;> simp [hread] at hop
  · exact h

/-- A request that cannot be sent: nothing was granted, or the operation does not fit. -/
theorem Past.unsendable (h : Past c past) (hnumber : c.transactionId ≠ 0 → c.requestId ≠ 0) (hnone : c.request = none)
    (hfits : c.operationFits = true) : granted past = none := by
  rcases h.transactionId with ⟨-, hnot, -⟩ | ⟨hid, -⟩
  · exact hnot
  exfalso
  have hnumber := hnumber hid
  unfold request content at hnone
  unfold Past at h
  split at h <;> rename_i hphase <;> rw [hphase] at hnone <;> dsimp only [bind_some] at hnone
  · exact hid h.2
  · unfold operationFits at hfits
    rw [encode_number hnumber Nat.one_ne_zero hnone] at hfits
    cases hfits
  · exact encode_small hnumber rfl (Nat.zero_le _) hnone
  · exact encode_small hnumber rfl (Nat.zero_le _) hnone
  · exact hid h.2.1
  · have hpiece : c.piece.length ≤ stageChunkBytes := length_take_le _ _
    refine encode_small hnumber ?_ hpiece hnone
    simp [requestShapeIsValid, piece_ne_nil h.1]
  · exact encode_small hnumber rfl (Nat.zero_le _) hnone
  · exact encode_small hnumber rfl (Nat.zero_le _) hnone
  · exact hid h.2
  · exact hid h.2
  · exact h

/-! ## The invariant -/

/-- The request in flight, on top of the past. -/
def Facing (c : StorageClient) (past log : List Exchange) : Prop :=
  if c.sent = true then
    ∃ sent : SentRequest, c.content = some sent.request ∧ sent.requestId = c.requestId ∧ log = ⟨sent, .waiting⟩ :: past
  else log = past

/-- A command under way. -/
structure Working (c : StorageClient) (log : List Exchange) : Prop where
  busy : c.busy = true
  notDone : c.done = false
  suits : Suits c.work c.phase
  room : c.data.length ≤ maxStorageDataBytes
  cancelled : c.cancelled = true → c.sent = true ∧ c.transactionId = 0
  numbered : c.transactionId ≠ 0 → c.requestId ≠ 0
  past : ∃ past, Past c past ∧ Facing c past log

/-- Without a fault, a transaction that was granted has been ended. -/
def Ended (c : StorageClient) (log : List Exchange) : Prop :=
  Faultless log → c.operationFits = true → ∀ id, granted log = some id →
    ∃ request ∈ endings id, (requests log).getLast? = some request

/-- The commit of a transaction was answered with `Ok`. -/
def Committed (log : List Exchange) : Prop :=
  ∃ exchange ∈ log, ∃ id response, granted log = some id ∧
    (exchange.sent.request = commitRequest id ∨ exchange.sent.request = stageCommitRequest id) ∧
    exchange.outcome = .reply response ∧ response.status = .ok

/-- A command that has come to its end. -/
structure Over (c : StorageClient) (log : List Exchange) : Prop where
  done : c.done = true
  idle : c.busy = false
  form : Form c.work c.data log
  ok : c.result = okText → c.work ≠ .list → c.work ≠ .cat → Committed log
  ended : Ended c log

lemma disciplined_of_working (h : Working c log) : Disciplined c log := by
  obtain ⟨past, hpast, hfacing⟩ := h.past
  have hlog : log = past ∨ ∃ sent : SentRequest, c.content = some sent.request ∧ log = ⟨sent, .waiting⟩ :: past := by
    unfold Facing at hfacing
    split at hfacing
    · obtain ⟨sent, hcontent, -, hlog⟩ := hfacing
      exact .inr ⟨sent, hcontent, hlog⟩
    · exact .inl hfacing
  have hnot : ¬ c.done = true := by simp [h.notDone]
  refine ⟨?_, ?_, ?_, ?_⟩
  · rcases hlog with rfl | ⟨sent, hcontent, rfl⟩
    · exact hpast.form h.suits
    · exact hpast.form_cons h.suits hcontent rfl
  · exact fun hdone => absurd hdone hnot
  · intro exchange hmem id habort hanswered
    exfalso
    have haccepted : exchange.outcome.accepted = true := by
      revert hanswered
      cases exchange.outcome <;> simp [Outcome.answered, Outcome.accepted]
    have hin : exchange ∈ past := by
      rcases hlog with rfl | ⟨sent, -, rfl⟩
      · exact hmem
      · rcases mem_cons.mp hmem with rfl | hmem
        · cases hanswered
        · exact hmem
    exact hpast.not_aborted (mem_requests hin haccepted) id habort h.suits
  · exact fun hdone => absurd hdone hnot

lemma disciplined_of_over (h : Over c log) : Disciplined c log := by
  refine ⟨h.form, fun _ => h.ok, ?_, fun _ => h.ended⟩
  intro exchange _ id _ _
  refine ⟨h.done, ?_⟩
  intro t
  rw [drive, if_pos h.idle]

/-- No failure is reported as `ok`. -/
theorem statusText_ne_okText (status : StorageApiStatus) : (statusText status).take maxOutputBytes ≠ okText := by
  cases status <;> decide +kernel

lemma over_fail (status : StorageApiStatus) (hform : Form c.work c.data log) (hended : Ended c log) :
    Over (c.fail status) log := by
  unfold fail
  split
  · exact ⟨rfl, rfl, hform, fun hok => absurd hok (by decide +kernel : cancelledText.take maxOutputBytes ≠ okText), hended⟩
  · exact ⟨rfl, rfl, hform, fun hok => absurd hok (statusText_ne_okText status), hended⟩

lemma over_succeed (hform : Form c.work c.data log) (hended : Ended c log)
    (hok : c.work ≠ .list → c.work ≠ .cat → Committed log) : Over c.succeed log := by
  unfold succeed
  split <;> exact ⟨rfl, rfl, hform, fun _ => hok, hended⟩

lemma ended_of_not_granted (h : granted log = none) : Ended c log := by
  intro _ _ id hid
  rw [h] at hid
  cases hid

lemma ended_of_fault (hfault : exchange.sound = false) : Ended c (exchange :: past) := by
  intro hsound
  have hhead := hsound exchange (mem_cons_self ..)
  rw [hfault] at hhead
  cases hhead

/-- The last request was one that ends the transaction. -/
theorem ended_of_last (haccepted : exchange.outcome.accepted = true)
    (hgranted : granted past = some c.transactionId) (hlast : exchange.sent.request ∈ endings c.transactionId) :
    Ended c (exchange :: past) := by
  intro _ _ id hid
  rw [granted_cons hgranted] at hid
  rw [← some.inj hid, requests_cons haccepted]
  exact ⟨_, hlast, getLast?_concat⟩

/-! ## Single steps -/

/-- The client turns to its next request. -/
theorem working_nextRequest (hbusy : c.busy = true) (hdone : c.done = false) (hsuits : Suits c.work c.phase)
    (hroom : c.data.length ≤ maxStorageDataBytes) (hcancelled : c.cancelled = false) (hpast : Past c log) :
    Working c.nextRequest log := by
  refine ⟨hbusy, hdone, hsuits, hroom, ?_, ?_, log, hpast, ?_⟩
  · intro h
    rw [show c.nextRequest.cancelled = c.cancelled from rfl, hcancelled] at h
    cases h
  · have hpos : 1 ≤ c.nextRequest.requestId := le_max_right _ _
    omega
  · rfl

/-- What is known where a response has come in. -/
structure Received (c : StorageClient) (sent : SentRequest) (past : List Exchange) : Prop where
  busy : c.busy = true
  notDone : c.done = false
  suits : Suits c.work c.phase
  room : c.data.length ≤ maxStorageDataBytes
  past : Past c past
  content : c.content = some sent.request
  number : sent.requestId = c.requestId

variable {sent : SentRequest} {response : StorageApiResponse}

lemma Received.form (h : Received c sent past) {outcome : Outcome} (haccepted : outcome.accepted = true) :
    Form c.work c.data (⟨sent, outcome⟩ :: past) :=
  h.past.form_cons h.suits h.content haccepted

/-- The response to a read or a listing: whatever the client does with it, the conversation holds only reads. -/
theorem Received.onlyReads (h : Received c sent past) (hphase : c.phase = .read ∨ c.phase = .list) :
    OnlyReads (⟨sent, .reply response⟩ :: past) := by
  have hform : Form c.work c.data (⟨sent, .reply response⟩ :: past) := h.form rfl
  have hsuits := h.suits
  rcases hphase with hphase | hphase <;> rw [hphase] at hsuits <;> dsimp only [Suits] at hsuits <;> rw [hsuits] at hform <;>
    exact hform

/-- A response that grants nothing, to a client without a transaction. -/
theorem Received.not_granted (h : Received c sent past) (hid : c.transactionId = 0)
    (hresponse : response.status ≠ .ok ∨ response.transactionId = 0) : granted (⟨sent, .reply response⟩ :: past) = none := by
  rcases h.past.transactionId with ⟨-, -, ⟨rfl, -⟩ | hreads⟩ | ⟨hne, -⟩
  · refine if_neg ?_
    rintro ⟨-, -, hok, hne⟩
    rcases hresponse with hbad | hbad
    · exact hbad hok
    · exact hne hbad
  · exact (h.onlyReads hreads).not_granted
  · exact absurd hid hne

/-- What a step of the client leaves behind: a command under way, or one that has come to its end. -/
def Inv (c : StorageClient) (log : List Exchange) : Prop := Working c log ∨ Over c log

section

variable (h : Received c sent past)
include h

/-- The client turns to its next request, in another phase of the command. -/
theorem Received.next {c' : StorageClient} (hcancelled : c.cancelled = false) (hsuits : Suits c'.work c'.phase) (hpast : Past c' log)
    (hsame : (c'.busy, c'.done, c'.data, c'.cancelled) = (c.busy, c.done, c.data, c.cancelled) := by rfl) :
    Inv c'.nextRequest log := by
  simp only [Prod.mk.injEq] at hsame
  obtain ⟨hbusy, hdone, hdata, hflag⟩ := hsame
  exact .inl (working_nextRequest (hbusy.trans h.busy) (hdone.trans h.notDone) hsuits (hdata ▸ h.room) (hflag.trans hcancelled) hpast)

lemma Received.fail_unopened (hid : c.transactionId = 0)
    (hresponse : response.status ≠ .ok ∨ response.transactionId = 0) (status : StorageApiStatus) :
    Inv (c.fail status) (⟨sent, .reply response⟩ :: past) :=
  .inr (over_fail status (h.form rfl) (ended_of_not_granted (h.not_granted hid hresponse)))

lemma Received.fail_fault {outcome : Outcome} (haccepted : outcome.accepted = true)
    (hfault : Exchange.sound ⟨sent, outcome⟩ = false) (status : StorageApiStatus) :
    Inv (c.fail status) (⟨sent, outcome⟩ :: past) :=
  .inr (over_fail status (h.form haccepted) (ended_of_fault hfault))

/-- The response to the request that ends a transaction. -/
theorem Received.fail_ended (hid : c.transactionId ≠ 0)
    (hlast : sent.request ∈ endings c.transactionId) (status : StorageApiStatus) :
    Inv (c.fail status) (⟨sent, .reply response⟩ :: past) := by
  rcases h.past.transactionId with ⟨hzero, -⟩ | ⟨-, hgranted⟩
  · exact absurd hzero hid
  · exact .inr (over_fail status (h.form rfl) (ended_of_last rfl hgranted hlast))

lemma Received.succeed_committed (hid : c.transactionId ≠ 0) (hok : response.status = .ok)
    (hcommit : sent.request = commitRequest c.transactionId ∨ sent.request = stageCommitRequest c.transactionId) :
    Inv c.succeed (⟨sent, .reply response⟩ :: past) := by
  rcases h.past.transactionId with ⟨hzero, -⟩ | ⟨-, hgranted⟩
  · exact absurd hzero hid
  · refine .inr (over_succeed (h.form rfl) (ended_of_last rfl hgranted ?_) fun _ _ => ?_)
    · rcases hcommit with hcommit | hcommit <;> simp [endings, hcommit]
    · exact ⟨_, mem_cons_self .., c.transactionId, response, granted_cons hgranted, hcommit, rfl, hok⟩

end

/-- The response to a request to begin. -/
theorem Received.granted_first (h : Received c sent []) (hnumber : response.requestId = c.requestId)
    (hok : response.status = .ok) (hid : response.transactionId ≠ 0)
    (hbegin : sent.request.operation = .begin ∨ sent.request.operation = .stageWriteBegin) :
    granted [⟨sent, .reply response⟩] = some response.transactionId := by
  exact if_pos ⟨hbegin, hnumber.trans h.number.symm, hok, hid⟩

lemma Received.inPhase {phase : StoragePhase} (h : Received c sent past) (hphase : c.phase = phase) :
    Suits c.work phase ∧ Past { c with phase } past ∧ StorageClient.content { c with phase } = some sent.request := by
  subst hphase
  exact ⟨h.suits, h.past, h.content⟩

/-- What becomes of a client that takes a response. -/
abbrev Handles (c : StorageClient) (sent : SentRequest) (response : StorageApiResponse) (past : List Exchange) : Prop :=
  Inv (c.handleResponse response) (⟨sent, .reply response⟩ :: past)

section

variable (h : Received c sent past)
include h

lemma Received.begin (hphase : c.phase = .begin) (hcancelled : c.cancelled = false)
    (hnumber : response.requestId = c.requestId) : Handles c sent response past := by
  obtain ⟨hsuits, hpast, hcontent⟩ := h.inPhase hphase
  obtain ⟨rfl, hid⟩ := hpast
  unfold Handles handleResponse handleRefusal
  rw [hphase]
  dsimp only
  split
  · rename_i hbad
    exact h.fail_unopened hid (.inl hbad) _
  rename_i hok
  split
  · rename_i hzero
    exact h.fail_unopened hid (.inr hzero) _
  rename_i hne
  have hsent : sent.request = beginRequest := (some.inj hcontent).symm
  refine h.next hcancelled hsuits ⟨?_, ?_⟩
  · exact h.granted_first hnumber (not_not.mp hok) hne (.inl (by rw [hsent]; rfl))
  · rw [requests_cons rfl, hsent]
    rfl

lemma Received.operation (hphase : c.phase = .operation) (hcancelled : c.cancelled = false) : Handles c sent response past := by
  obtain ⟨hsuits, hpast, hcontent⟩ := h.inPhase hphase
  have hid : c.transactionId ≠ 0 := granted_ne_zero hpast.1
  have hsent : sent.request = c.operationRequest := (some.inj hcontent).symm
  have hnext : granted (⟨sent, .reply response⟩ :: past) = some c.transactionId ∧
      requests (⟨sent, .reply response⟩ :: past) = [beginRequest, c.operationRequest] := by
    rw [requests_cons rfl, hpast.2, hsent]
    exact ⟨granted_cons hpast.1, rfl⟩
  unfold Handles handleResponse handleRefusal
  rw [hphase]
  split
  · exact h.next hcancelled hsuits hnext
  · cases c.operationAborts
    · exact h.next hcancelled hsuits hnext
    · exact h.next hcancelled hsuits hnext

lemma Received.commit (hphase : c.phase = .commit) : Handles c sent response past := by
  obtain ⟨-, hpast, hcontent⟩ := h.inPhase hphase
  have hid := granted_ne_zero hpast.1
  have hsent : sent.request = commitRequest c.transactionId := (some.inj hcontent).symm
  unfold Handles handleResponse handleRefusal
  rw [hphase]
  split
  · exact h.fail_ended hid (by simp [endings, hsent]) _
  · rename_i hok
    exact h.succeed_committed hid (not_not.mp hok) (.inl hsent)

/-- The response to an abort. -/
theorem Received.aborted (hphase : c.phase = .abort ∨ c.phase = .stageAbort) (hid : c.transactionId ≠ 0)
    (hlast : sent.request ∈ endings c.transactionId) : Handles c sent response past := by
  unfold Handles handleResponse handleRefusal
  rcases hphase with hphase | hphase <;> rw [hphase] <;> dsimp only <;> split <;> exact h.fail_ended hid hlast _

lemma Received.abort (hphase : c.phase = .abort) : Handles c sent response past := by
  obtain ⟨-, hpast, hcontent⟩ := h.inPhase hphase
  have hsent : sent.request = abortRequest c.transactionId := (some.inj hcontent).symm
  exact h.aborted (.inl hphase) (granted_ne_zero hpast.1) (by simp [endings, hsent])

lemma Received.stageBegin (hphase : c.phase = .stageBegin) (hcancelled : c.cancelled = false)
    (hnumber : response.requestId = c.requestId) : Handles c sent response past := by
  obtain ⟨hsuits, hpast, hcontent⟩ := h.inPhase hphase
  obtain ⟨rfl, hid, (hcursor : c.cursor = 0)⟩ := hpast
  unfold Handles handleResponse handleRefusal
  rw [hphase]
  dsimp only
  split
  · rename_i hbad
    exact h.fail_unopened hid (.inl hbad) _
  rename_i hok
  split
  · rename_i hzero
    exact h.fail_unopened hid (.inr hzero) _
  rename_i hne
  have hsent : sent.request = stageBeginRequest c.path := (some.inj hcontent).symm
  have hfirst : Sent response.transactionId c.path c.data 0 [] [⟨sent, .reply response⟩] := by
    refine ⟨?_, ?_, ?_, rfl, Nat.zero_le _⟩
    · exact h.granted_first hnumber (not_not.mp hok) hne (.inr (by rw [hsent]; rfl))
    · rw [requests_cons rfl, hsent]
      rfl
    · exact nofun
  split
  · rename_i hempty
    refine h.next hcancelled hsuits ⟨[], ?_⟩
    show Sent _ _ _ c.data.length _ _
    rw [hempty]
    exact hfirst
  · refine h.next hcancelled hsuits ⟨?_, [], ?_⟩
    · show c.cursor < c.data.length
      omega
    · show Sent _ _ _ c.cursor _ _
      rw [hcursor]
      exact hfirst

lemma Received.stageChunk (hphase : c.phase = .stageChunk) (hcancelled : c.cancelled = false) : Handles c sent response past := by
  obtain ⟨hsuits, hpast, hcontent⟩ := h.inPhase hphase
  obtain ⟨(hmore : c.cursor < c.data.length), pieces, hsent⟩ := hpast
  have hid : c.transactionId ≠ 0 := granted_ne_zero hsent.grant
  have hrequest : sent.request = chunkRequest c.transactionId c.cursor c.piece := (some.inj hcontent).symm
  have hnext : Sent c.transactionId c.path c.data (min (c.cursor + stageChunkBytes) c.data.length) (pieces ++ [c.piece])
      (⟨sent, .reply response⟩ :: past) := by
    refine hsent.append ?_ (granted_cons hsent.grant) rfl hmore
    rw [requests_cons rfl, hrequest]
  unfold Handles handleResponse handleRefusal
  rw [hphase]
  split
  · exact h.next hcancelled hsuits ⟨_, _, hnext⟩
  have hcursor : min (c.cursor + min (c.data.length - c.cursor) stageChunkBytes) (2 ^ 32 - 1) =
      min (c.cursor + stageChunkBytes) c.data.length := by
    have hroom := h.room
    simp only [maxStorageDataBytes] at hroom
    omega
  rw [hcursor]
  unfold staging
  dsimp only
  split
  · have hcount : min (c.cursor + stageChunkBytes) c.data.length = c.data.length := by omega
    rw [hcount] at hnext
    exact h.next hcancelled hsuits ⟨_, hnext⟩
  · rename_i hleft
    exact h.next hcancelled hsuits ⟨not_le.mp hleft, _, hnext⟩

lemma Received.stageCommit (hphase : c.phase = .stageCommit) (hok : response.status = .ok) : Handles c sent response past := by
  obtain ⟨-, hpast, hcontent⟩ := h.inPhase hphase
  obtain ⟨pieces, hsent⟩ := hpast
  unfold Handles handleResponse
  rw [if_neg (not_not.mpr hok), hphase]
  exact h.succeed_committed (granted_ne_zero hsent.grant) hok (.inr (some.inj hcontent).symm)

lemma Received.stageAbort (hphase : c.phase = .stageAbort) : Handles c sent response past := by
  obtain ⟨-, ⟨pieces, count, hpast⟩, hcontent⟩ := h.inPhase hphase
  have hsent : sent.request = stageAbortRequest c.transactionId := (some.inj hcontent).symm
  exact h.aborted (.inr hphase) (granted_ne_zero hpast.grant) (by simp [endings, hsent])

section

variable (hphase : c.phase = .read ∨ c.phase = .list)
include hphase

/-- The client after a page of a read or a listing, with another cursor and another result. -/
theorem Received.page (hcancelled : c.cancelled = false) (cursor : ℕ) (result : List UInt8) :
    Working { c with cursor, result }.nextRequest (⟨sent, .reply response⟩ :: past) ∧
      Over { c with cursor, result }.succeed (⟨sent, .reply response⟩ :: past) := by
  have hreads : OnlyReads (⟨sent, .reply response⟩ :: past) := h.onlyReads hphase
  have hsuits := h.suits
  have hpast := h.past
  have hid : c.transactionId = 0 := by
    rcases hphase with hphase | hphase <;> simp only [Past, hphase] at hpast <;> exact hpast.2
  refine ⟨working_nextRequest h.busy h.notDone h.suits h.room hcancelled ?_, over_succeed (h.form rfl) ?_ ?_⟩
  · rcases hphase with hphase | hphase <;> rw [hphase] <;> exact ⟨hreads, hid⟩
  · exact ended_of_not_granted hreads.not_granted
  · intro hlist hcat
    rcases hphase with hphase | hphase <;> rw [hphase] at hsuits
    · exact absurd hsuits hcat
    · exact absurd hsuits hlist

lemma Received.fail_reading (status : StorageApiStatus) : Inv (c.fail status) (⟨sent, .reply response⟩ :: past) :=
  .inr (over_fail status (h.form rfl) (ended_of_not_granted (h.onlyReads hphase).not_granted))

lemma Received.reading (hcancelled : c.cancelled = false) : Handles c sent response past := by
  have hpage : ∀ cursor result, Working { c with cursor, result }.nextRequest (⟨sent, .reply response⟩ :: past) ∧
      Over { c with cursor, result }.succeed (⟨sent, .reply response⟩ :: past) := h.page hphase hcancelled
  unfold Handles handleResponse handleRefusal
  split
  · have hfail : Inv (c.fail response.status) (⟨sent, .reply response⟩ :: past) := h.fail_reading hphase response.status
    rcases hphase with hphase | hphase <;> rw [hphase] <;> dsimp only <;> split <;> exact hfail
  rcases hphase with hphase | hphase
  · rw [hphase]
    dsimp only
    split
    · exact h.fail_reading (.inl hphase) _
    · split
      · exact .inl (hpage _ _).1
      · exact .inr (hpage _ _).2
  · rw [hphase]
    dsimp only
    split
    · split
      · exact .inl (hpage _ _).1
      · exact .inr (hpage _ _).2
    · split
      · exact .inl (hpage _ _).1
      · exact .inr (hpage _ _).2

end

/-- A response that the client takes as one to its request. -/
theorem Received.handleResponse (hcancelled : c.cancelled = false)
    (hnumber : response.requestId = c.requestId) (hcommit : c.phase = .stageCommit → response.status = .ok) : Handles c sent response past := by
  cases hphase : c.phase with
  | begin => exact h.begin hphase hcancelled hnumber
  | operation => exact h.operation hphase hcancelled
  | commit => exact h.commit hphase
  | abort => exact h.abort hphase
  | stageBegin => exact h.stageBegin hphase hcancelled hnumber
  | stageChunk => exact h.stageChunk hphase hcancelled
  | stageCommit => exact h.stageCommit hphase (hcommit hphase)
  | stageAbort => exact h.stageAbort hphase
  | read => exact h.reading (.inl hphase) hcancelled
  | list => exact h.reading (.inr hphase) hcancelled
  | idle =>
    have hsuits := h.suits
    rw [hphase] at hsuits
    exact absurd hsuits id

lemma Received.consume {message : Option StorageApiResponse}
    (hid : c.cancelled = true → c.transactionId = 0)
    (hcancelled : ∀ response, message = some response → c.cancelled = true → response.transactionId = 0)
    (hcommit : ∀ response, message = some response → c.phase = .stageCommit → response.status = .ok) :
    Inv (c.consume message) (⟨sent, message.elim .garbled .reply⟩ :: past) := by
  cases message with
  | none => exact h.fail_fault rfl rfl _
  | some response =>
    unfold StorageClient.consume
    dsimp only
    split
    · rename_i hother
      refine h.fail_fault rfl ?_ _
      rw [Exchange.sound, h.number]
      exact beq_false_of_ne hother
    · rename_i hnumber
      split
      · rename_i hflag
        have hnone := hcancelled response rfl hflag
        have hsame : { c with transactionId := response.transactionId } = c := by rw [hnone, ← hid hflag]
        rw [if_pos (hid hflag), if_pos hnone, hsame]
        exact h.fail_unopened (hid hflag) (.inr hnone) _
      · rename_i hflag
        exact h.handleResponse (Bool.eq_false_iff.mpr hflag) (not_not.mp hnumber) (hcommit response rfl)

end

/-! ## Runs of a command -/

/-- A client and what it has said and heard in its command. -/
structure Session where
  client : StorageClient
  log : List Exchange

/-- A call from outside; a drive comes with what the transport will answer. -/
inductive Call where
  | drive (sendStatus receiveStatus : IpcStatus) (message : Option StorageApiResponse)
  | cancel

def Session.step (s : Session) : Call → Session
  | .drive sendStatus receiveStatus message =>
    match s.client.drive ⟨sendStatus, receiveStatus, message, s.log⟩ with
    | (_, client, t) => ⟨client, t.log⟩
  | .cancel => ⟨s.client.cancel, s.log⟩

/-- A command was started on some client that was free. -/
def Started (c : StorageClient) : Prop :=
  ∃ before : StorageClient, (∃ command, before.start command = (true, c)) ∨
    (∃ path data, before.startTouchWrite path data = (true, c)) ∨ ∃ path, before.startProofAbort path = (true, c)

/-- The states of a command under calls that satisfy `allowed`. -/
inductive Reached (allowed : Session → Call → Prop) : Session → Prop
  | start {c : StorageClient} : Started c → Reached allowed ⟨c, []⟩
  | step {s : Session} (call : Call) : Reached allowed s → allowed s call → Reached allowed (s.step call)

/-- The command is not cancelled while it holds a transaction, none is granted to a cancelled command, and a staged write
that was sent completely is committed. -/
def Undisturbed (s : Session) : Call → Prop
  | .cancel => s.client.busy = true → s.client.transactionId = 0
  | .drive _ _ none => True
  | .drive _ _ (some response) =>
    (s.client.cancelled = true → response.transactionId = 0) ∧
      (s.client.phase = .stageCommit → s.client.sent = true → response.status = .ok)

instance (s : Session) (call : Call) : Decidable (Undisturbed s call) := by
  unfold Undisturbed
  split <;> infer_instance

lemma form_of_requests_nil (h : requests log = []) : Form work data log := by
  have hreads : OnlyReads log := by
    intro request hmem
    rw [h] at hmem
    cases hmem
  cases work <;> first | exact hreads | exact .inl h

/-- A request that the transport does not take leaves no trace in the form. -/
theorem form_cons_refused
    (hrefused : exchange.outcome.accepted = false) (h : Form work data past) : Form work data (exchange :: past) := by
  have hreq : requests (exchange :: past) = requests past := by
    rw [requests, hrefused]
    rfl
  cases past with
  | nil => exact form_of_requests_nil hreq
  | cons first rest =>
    have hgranted : granted (exchange :: first :: rest) = granted (first :: rest) := rfl
    cases work <;> simpa [Form, OnlyReads, Plain, Staged, hreq, hgranted] using h

section

variable (h : Working c log)
include h

lemma Working.received (hsent : c.sent = true) :
    ∃ sent past, Received { c with sent := false } sent past ∧ log = ⟨sent, .waiting⟩ :: past := by
  obtain ⟨past, hpast, hfacing⟩ := h.past
  rw [Facing, if_pos hsent] at hfacing
  obtain ⟨sent, hcontent, hnumber, hlog⟩ := hfacing
  exact ⟨sent, past, ⟨h.busy, h.notDone, h.suits, h.room, hpast, hcontent, hnumber⟩, hlog⟩

lemma Working.unsent (hsent : c.sent = false) : Past c log := by
  obtain ⟨past, hpast, hfacing⟩ := h.past
  rw [Facing, hsent] at hfacing
  rw [show log = past from hfacing]
  exact hpast

/-- The client tries to send its request. -/
theorem Working.send (hsent : c.sent = false) (t : Transport) (hlog : t.log = log) :
    Inv (c.drive t).2.1 (c.drive t).2.2.log := by
  have hpast := h.unsent hsent
  have hform := hpast.form h.suits
  have hbusy : ¬ c.busy = false := by simp [h.busy]
  unfold drive
  rw [if_neg hbusy, if_pos hsent]
  split
  · rename_i hnone
    refine .inr (over_fail _ (hlog ▸ hform) ?_)
    intro _ hfits id hid
    rw [hlog, hpast.unsendable h.numbered hnone hfits] at hid
    cases hid
  · rename_i request hrequest
    obtain ⟨content, hcontent, hencode⟩ := bind_eq_some_iff.mp hrequest
    have hmade : request = ⟨c.requestId, content⟩ := by
      simp only [encode, ite_none_left_eq_some, some.injEq] at hencode
      exact hencode.2.2.symm
    have hrefused : ∀ status, Inv (c.fail (storageIpcError status)) (⟨request, .refused status⟩ :: t.log) := by
      intro status
      rw [hlog]
      exact .inr (over_fail _ (form_cons_refused rfl hform) (ended_of_fault rfl))
    unfold Transport.send
    cases hstatus : t.sendStatus with
    | ok =>
      refine .inl ⟨h.busy, h.notDone, h.suits, h.room, ?_, h.numbered, log, hpast, ?_⟩
      · intro hcancelled
        exact ⟨rfl, (h.cancelled hcancelled).2⟩
      refine ⟨request, ?_, ?_, ?_⟩
      · rw [hmade]
        exact hcontent
      · rw [hmade]
      · rw [hlog]
    | full =>
      rw [hlog]
      exact .inl h
    | _ => exact hrefused _

/-- The client looks for a response. -/
theorem Working.receive (hsent : c.sent = true) (t : Transport) (hlog : t.log = log)
    (hcancelled : ∀ response, t.message = some response → c.cancelled = true → response.transactionId = 0)
    (hcommit : ∀ response, t.message = some response → c.phase = .stageCommit → response.status = .ok) :
    Inv (c.drive t).2.1 (c.drive t).2.2.log := by
  obtain ⟨sent, past, hreceived, hwaiting⟩ := h.received hsent
  have hbusy : ¬ c.busy = false := by simp [h.busy]
  have hsettle : ∀ outcome, (t.settle outcome).log = ⟨sent, outcome⟩ :: past := by
    intro outcome
    rw [Transport.settle, hlog, hwaiting]
  have hfailed : ∀ status, Inv (c.fail (storageIpcError status)) (t.settle (.failed status)).log := by
    intro status
    rw [hsettle]
    exact .inr (over_fail _ (hreceived.form rfl) (ended_of_fault rfl))
  unfold drive
  rw [if_neg hbusy, if_neg (by simp [hsent])]
  unfold Transport.receive
  cases hstatus : t.receiveStatus with
  | ok =>
    rw [hsettle]
    exact hreceived.consume (fun hflag => (h.cancelled hflag).2) hcancelled hcommit
  | empty =>
    rw [hlog]
    exact .inl h
  | _ => exact hfailed _

lemma Working.cancel (hid : c.transactionId = 0) : Inv c.cancel log := by
  have hbusy : ¬ c.busy = false := by simp [h.busy]
  unfold StorageClient.cancel
  rw [if_neg hbusy]
  dsimp only
  split
  · rename_i hsent
    exact .inl ⟨h.busy, h.notDone, h.suits, h.room, fun _ => ⟨hsent, hid⟩, h.numbered, h.past⟩
  rename_i hsent
  have hpast := h.unsent (Bool.eq_false_iff.mpr hsent)
  refine .inr (over_fail _ (hpast.form h.suits) ?_)
  rcases hpast.transactionId with ⟨-, hnot, -⟩ | ⟨hne, -⟩
  · exact ended_of_not_granted hnot
  · exact absurd hid hne

end

lemma Over.step (h : Over c log) (call : Call) : Session.step ⟨c, log⟩ call = ⟨c, log⟩ := by
  cases call with
  | drive sendStatus receiveStatus message =>
    simp [Session.step, drive, h.idle]
  | cancel => simp [Session.step, cancel, h.idle]

lemma inv_step {s : Session} (h : Inv s.client s.log) {call : Call} (hcall : Undisturbed s call) :
    Inv (s.step call).client (s.step call).log := by
  rcases h with h | h
  · cases call with
    | cancel => exact h.cancel (hcall h.busy)
    | drive sendStatus receiveStatus message =>
      by_cases hsent : s.client.sent = true
      · refine h.receive hsent _ rfl ?_ ?_
        · rintro response rfl
          exact hcall.1
        · rintro response rfl hphase
          exact hcall.2 hphase hsent
      · exact h.send (Bool.eq_false_iff.mpr hsent) _ rfl
  · rw [h.step call]
    exact .inr h

lemma working_startWork {before : StorageClient} {phase : StoragePhase}
    {path secondaryPath : List UInt8} (hstart : before.startWork work phase path secondaryPath data = (true, c))
    (hphase : (phase = .begin ∨ phase = .stageBegin ∨ phase = .read ∨ phase = .list) ∧ Suits work phase) : Working c [] := by
  unfold startWork at hstart
  split at hstart
  · cases hstart
  split at hstart
  · cases hstart
  split at hstart
  · cases hstart
  split at hstart
  · cases hstart
  rename_i hlen
  obtain rfl := (Prod.mk.inj hstart).2
  refine ⟨rfl, rfl, hphase.2, not_lt.mp hlen, ?_, fun hne => absurd rfl hne, [], ?_, rfl⟩
  · exact nofun
  · obtain ⟨rfl | rfl | rfl | rfl, -⟩ := hphase
    · exact ⟨rfl, rfl⟩
    · exact ⟨rfl, rfl, rfl⟩
    · exact ⟨fun _ hmem => (nomatch hmem), rfl⟩
    · exact ⟨fun _ hmem => (nomatch hmem), rfl⟩

lemma working_of_started (h : Started c) : Working c [] := by
  obtain ⟨before, ⟨command, hstart⟩ | ⟨path, data, hstart⟩ | ⟨path, hstart⟩⟩ := h
  · cases command with
    | writeVariables path data pathIsVariable dataIsVariable create => cases hstart
    | _ =>
      simp only [start] at hstart
      exact working_startWork hstart (by simp [Suits])
  · exact working_startWork hstart (by simp [Suits])
  · exact working_startWork hstart (by simp [Suits])

/-- **A command keeps its transactions in order.**  Wherever no command is cancelled while it holds a transaction, the requests
of a command begin a transaction, make one operation in it and end it once, or stage the data in order and commit or abort the
stage; `ok` is only said after a commit that was answered with `Ok`; and an aborted command is done. -/
theorem storage_client_disciplined {s : Session} (h : Reached Undisturbed s) : Disciplined s.client s.log := by
  have hinv : Inv s.client s.log := by
    induction h with
    | start hstarted => exact .inl (working_of_started hstarted)
    | step call _ hcall ih => exact inv_step ih hcall
  rcases hinv with hworking | hover
  · exact disciplined_of_working hworking
  · exact disciplined_of_over hover

/-- One byte staged and committed in the transaction `5`. -/
theorem storage_client_disciplined_staged : ∃ s : Session, Reached Undisturbed s ∧ s.client.result = okText ∧
      ∃ exchange ∈ s.log, ∃ id response, granted s.log = some id ∧
        (exchange.sent.request = commitRequest id ∨ exchange.sent.request = stageCommitRequest id) ∧
        exchange.outcome = .reply response ∧ response.status = .ok := by
  have h0 : Reached Undisturbed ⟨(new.start (.touchWrite [47, 97] [1])).2, []⟩ :=
    .start ⟨.new, .inl ⟨.touchWrite [47, 97] [1], by decide +kernel⟩⟩
  have h1 := h0.step (.drive .ok .ok none) trivial
  have h2 := h1.step (.drive .ok .ok (some ⟨.ok, 1, 5, [], false⟩)) (by decide +kernel)
  have h3 := h2.step (.drive .ok .ok none) trivial
  have h4 := h3.step (.drive .ok .ok (some ⟨.ok, 2, 0, [], false⟩)) (by decide +kernel)
  have h5 := h4.step (.drive .ok .ok none) trivial
  have h6 := h5.step (.drive .ok .ok (some ⟨.ok, 3, 0, [], false⟩)) (by decide +kernel)
  refine ⟨_, h6, by decide +kernel, ?_⟩
  exact (storage_client_disciplined h6).ok (by decide +kernel) (by decide +kernel) (by decide +kernel) (by decide +kernel)

/-- **A cancelled client aborts for ever.**  A staged write is cancelled while its chunk is in flight: the client asks for the
plain abort of the staged transaction, and when that is answered it asks again. -/
theorem cancelled_client_keeps_aborting :
    ∃ s : Session, Reached (fun _ _ => True) s ∧ s.client.work = .touchWrite ∧ s.client.busy = true ∧ s.client.done = false ∧
      requests s.log = [stageBeginRequest [47, 97], chunkRequest 5 0 [1], abortRequest 5, abortRequest 5] ∧
      ∃ exchange ∈ s.log, exchange.sent.request = abortRequest 5 ∧ exchange.outcome.answered = true := by
  have h0 : Reached (fun _ _ => True) ⟨(new.start (.touchWrite [47, 97] [1])).2, []⟩ :=
    .start ⟨.new, .inl ⟨.touchWrite [47, 97] [1], by decide +kernel⟩⟩
  have h1 := h0.step (.drive .ok .ok none) trivial
  have h2 := h1.step (.drive .ok .ok (some ⟨.ok, 1, 5, [], false⟩)) trivial
  have h3 := h2.step (.drive .ok .ok none) trivial
  have h4 := h3.step .cancel trivial
  have h5 := h4.step (.drive .ok .ok (some ⟨.ok, 2, 0, [], false⟩)) trivial
  have h6 := h5.step (.drive .ok .ok none) trivial
  have h7 := h6.step (.drive .ok .ok (some ⟨.ok, 3, 0, [], false⟩)) trivial
  have h8 := h7.step (.drive .ok .ok none) trivial
  exact ⟨_, h8, by decide +kernel, by decide +kernel, by decide +kernel, by decide +kernel, by decide +kernel⟩

end LogOS.Flow
