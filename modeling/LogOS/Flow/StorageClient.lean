import LogOS.Abi

/-!
# The storage client of Flow

A command on a file becomes a conversation with the storage service: a transaction is begun, one operation is made in it, and
it is committed or aborted; a file written in one go is staged in chunks instead.  The client is a machine driven from
outside, one message at a time, and it can be told to cancel at any point.  The conversation is kept beside the transport, one
exchange for each request.
-/

namespace LogOS.Abi

deriving instance DecidableEq for StorageApiRequest

/-! ## Messages -/

/-- A request as it goes over the wire. -/
structure SentRequest where
  requestId : ℕ
  request : StorageApiRequest
  deriving DecidableEq, Repr

/-- A response of the storage service, as `StorageApiResponse::decode` returns it. -/
structure StorageApiResponse where
  status : StorageApiStatus
  requestId : ℕ
  transactionId : ℕ
  data : List UInt8
  more : Bool
  deriving DecidableEq, Repr

def requestHeaderBytes : ℕ := 26

def requestShapeIsValid (operation : StorageApiOperation) (path secondaryPath data : List UInt8) : Bool :=
  match operation with
  | .begin | .commit | .abort => path.isEmpty && secondaryPath.isEmpty && data.isEmpty
  | .list | .createFile | .read | .remove => secondaryPath.isEmpty && data.isEmpty
  | .write => secondaryPath.isEmpty
  | .rename => !path.isEmpty && !secondaryPath.isEmpty && data.isEmpty
  | .stageWriteBegin => !path.isEmpty && secondaryPath.isEmpty && data.isEmpty
  | .stageWriteChunk => path.isEmpty && secondaryPath.isEmpty && !data.isEmpty
  | .stageWriteCommit | .stageWriteAbort => path.isEmpty && secondaryPath.isEmpty && data.isEmpty
  | .packageList => path.isEmpty && secondaryPath.isEmpty && data.isEmpty
  | .packageInfo => !path.isEmpty && secondaryPath.isEmpty && data.isEmpty
  | .packageInstall => !path.isEmpty && secondaryPath.isEmpty && data.isEmpty
  | .open | .stat | .mkdir => !path.isEmpty && secondaryPath.isEmpty && data.isEmpty
  | .close | .handleRead | .unmapRead => path.isEmpty && secondaryPath.isEmpty && data.isEmpty
  | .mapRead => path.isEmpty && secondaryPath.isEmpty && data.length == storageApiMapLengthBytes
  | .handleWrite => path.isEmpty && secondaryPath.isEmpty
  | .fsync => path.isEmpty && secondaryPath.isEmpty && data.isEmpty

/-- `StorageApiRequest::encode`: a request that does not fit a message is refused. -/
def StorageApiRequest.encode (request : StorageApiRequest) (requestId : ℕ) : Option SentRequest :=
  if requestId = 0 ∨ request.path.length > 65535 ∨ request.secondaryPath.length > 65535 ∨ request.data.length > 65535 ∨
      requestShapeIsValid request.operation request.path request.secondaryPath request.data = false then none
  else if requestHeaderBytes + (request.path.length + request.secondaryPath.length + request.data.length) > maxIpcBytes then
    none
  else some ⟨requestId, request⟩

end LogOS.Abi

namespace LogOS.Flow

open Abi

/-! ## The transport and the conversation -/

/-- What became of a request. -/
inductive Outcome where
  | refused (status : IpcStatus)
  | waiting
  | failed (status : IpcStatus)
  | garbled
  | reply (response : StorageApiResponse)
  deriving DecidableEq, Repr

structure Exchange where
  sent : SentRequest
  outcome : Outcome
  deriving DecidableEq, Repr

/-- The transport: what it will answer to the next call, and the exchanges of the command so far, the last one first.  A full
queue and an empty one leave no trace. -/
structure Transport where
  sendStatus : IpcStatus
  receiveStatus : IpcStatus
  message : Option StorageApiResponse
  log : List Exchange

namespace Transport

variable (t : Transport)

def send (request : SentRequest) : IpcStatus × Transport :=
  match t.sendStatus with
  | .ok => (.ok, { t with log := ⟨request, .waiting⟩ :: t.log })
  | .full => (.full, t)
  | status => (status, { t with log := ⟨request, .refused status⟩ :: t.log })

/-- The last request got its outcome. -/
def settle (outcome : Outcome) : Transport :=
  match t.log with
  | [] => t
  | exchange :: rest => { t with log := { exchange with outcome } :: rest }

/-- A message that cannot be decoded is `none`. -/
def receive : IpcStatus × Option StorageApiResponse × Transport :=
  match t.receiveStatus with
  | .ok => (.ok, t.message, t.settle (t.message.elim .garbled .reply))
  | .empty => (.empty, none, t)
  | status => (status, none, t.settle (.failed status))

end Transport

/-! ## The client -/

inductive StorageWork where
  | list | touch | cat | write | touchWrite | remove | move | abortProof
  deriving DecidableEq, Repr

inductive StoragePhase where
  | begin | operation | commit | abort | stageBegin | stageChunk | stageCommit | stageAbort | read | list | idle
  deriving DecidableEq, Repr

inductive StorageCommand where
  | list (path : List UInt8)
  | touch (path : List UInt8)
  | cat (path : List UInt8)
  | write (path data : List UInt8)
  | touchWrite (path data : List UInt8)
  | writeVariables (path data : List UInt8) (pathIsVariable dataIsVariable create : Bool)
  | remove (path : List UInt8)
  | move (source target : List UInt8)
  deriving DecidableEq, Repr

def maxFlowBytes : ℕ := 256
def maxOutputBytes : ℕ := 512
def maxStorageDataBytes : ℕ := 8192
def stageChunkBytes : ℕ := 192

structure StorageClient where
  work : StorageWork
  phase : StoragePhase
  busy : Bool
  done : Bool
  sent : Bool
  requestId : ℕ
  transactionId : ℕ
  cursor : ℕ
  path : List UInt8
  secondaryPath : List UInt8
  data : List UInt8
  result : List UInt8
  failure : StorageApiStatus
  lastStatus : StorageApiStatus
  cancelled : Bool
  deriving DecidableEq, Repr

def StorageClient.new : StorageClient :=
  ⟨.list, .idle, false, false, false, 1, 0, 0, [], [], [], [], .invalid, .invalid, false⟩

/-- Trailing slashes taken off a path given backwards; the last byte stays. -/
def stripSlashes : List UInt8 → List UInt8
  | a :: b :: rest => if a = 47 then stripSlashes (b :: rest) else a :: b :: rest
  | short => short

def rootRelativePath (path : List UInt8) (room : ℕ) : Option (List UInt8) :=
  if path = [] then some []
  else
    let path := (stripSlashes path.reverse).reverse
    let path := if path.head? = some 47 then path else 47 :: path
    if path.length > room then none else some path

def statusText : StorageApiStatus → List UInt8
  | .invalid => "invalid storage request\r\n".toUTF8.data.toList
  | .notFound => "not found\r\n".toUTF8.data.toList
  | .alreadyExists => "already exists\r\n".toUTF8.data.toList
  | .busy => "storage busy\r\n".toUTF8.data.toList
  | .capacity => "storage capacity exhausted\r\n".toUTF8.data.toList
  | .io => "storage I/O error\r\n".toUTF8.data.toList
  | .unsupported => "storage unsupported\r\n".toUTF8.data.toList
  | .unavailable => "storage service unavailable\r\n".toUTF8.data.toList
  | .permissionDenied => "storage access denied\r\n".toUTF8.data.toList
  | .readOnly => "storage is read-only\r\n".toUTF8.data.toList
  | .recovery => "storage recovery required\r\n".toUTF8.data.toList
  | .corrupt => "storage format is invalid\r\n".toUTF8.data.toList
  | .notDirectory => "not a directory\r\n".toUTF8.data.toList
  | .isDirectory => "is a directory\r\n".toUTF8.data.toList
  | .root => "cannot modify root\r\n".toUTF8.data.toList
  | .notEmpty => "directory not empty\r\n".toUTF8.data.toList
  | .stale => "stale transaction\r\n".toUTF8.data.toList
  | .tooLarge => "data too large\r\n".toUTF8.data.toList
  | .noTransaction => "no transaction\r\n".toUTF8.data.toList
  | _ => "storage error\r\n".toUTF8.data.toList

def okText : List UInt8 := "ok\r\n".toUTF8.data.toList
def cancelledText : List UInt8 := "command cancelled\r\n".toUTF8.data.toList
def lineEnd : List UInt8 := [13, 10]

def storageIpcError : IpcStatus → StorageApiStatus
  | .stale => .stale
  | .malformed => .invalid
  | .disconnected => .unavailable
  | .unauthorized => .permissionDenied
  | .full => .busy
  | .ok | .empty => .io

namespace StorageClient

/-! ### Starting a command -/

variable (c : StorageClient)

/-- The fields that a start clears before it looks at its arguments. -/
def cleared : StorageClient :=
  { c with
    path := [], secondaryPath := [], data := [], result := [], cursor := 0, transactionId := 0, lastStatus := .invalid,
    cancelled := false }

/-- The client at the first phase of a command. -/
def begun (work : StorageWork) (phase : StoragePhase) (path secondaryPath data : List UInt8) : StorageClient :=
  { c with path, secondaryPath, data, work, phase, busy := true, done := false, sent := false }

def startWork (work : StorageWork) (phase : StoragePhase) (path secondaryPath data : List UInt8) : Bool × StorageClient :=
  if c.busy || c.done then (false, c)
  else
    match rootRelativePath path maxFlowBytes with
    | none => (false, c.cleared)
    | some path =>
      match rootRelativePath secondaryPath maxFlowBytes with
      | none => (false, c.cleared)
      | some secondaryPath =>
        if data.length > maxStorageDataBytes then (false, c.cleared)
        else (true, c.cleared.begun work phase path secondaryPath data)

def start : StorageCommand → Bool × StorageClient
  | .list path => c.startWork .list .list path [] []
  | .touch path => c.startWork .touch .begin path [] []
  | .cat path => c.startWork .cat .read path [] []
  | .write path data => c.startWork .write .begin path [] data
  | .touchWrite path data => c.startWork .touchWrite .stageBegin path [] data
  | .writeVariables .. => (false, c)
  | .remove path => c.startWork .remove .begin path [] []
  | .move source target => c.startWork .move .begin source target []

def startTouchWrite (path data : List UInt8) : Bool × StorageClient := c.startWork .touchWrite .stageBegin path [] data

def startProofAbort (path : List UInt8) : Bool × StorageClient :=
  { c with failure := .ok }.startWork .abortProof .begin path [] []

/-! ### Requests -/

def nextRequest : StorageClient := { c with requestId := max ((c.requestId + 1) % 2 ^ 32) 1, sent := false }

def operationOf : StorageWork → StorageApiOperation
  | .touch => .createFile
  | .write | .touchWrite => .write
  | .remove => .remove
  | .move => .rename
  | .abortProof => .createFile
  | .list | .cat => .read

/-- The part of the data that goes into the next chunk. -/
def piece : List UInt8 := (c.data.drop c.cursor).take stageChunkBytes

/-- The operation of the command, in the transaction. -/
def operationRequest : StorageApiRequest :=
  ⟨operationOf c.work, if c.work = .write then storageApiFlagReplace else 0, c.transactionId, 0, c.path, c.secondaryPath,
    c.data⟩

/-- What the client has to say in its phase. -/
def content : Option StorageApiRequest :=
  match c.phase with
  | .begin => some ⟨.begin, 0, 0, 0, [], [], []⟩
  | .operation => some c.operationRequest
  | .commit => some ⟨.commit, 0, c.transactionId, 0, [], [], []⟩
  | .abort => some ⟨.abort, 0, c.transactionId, 0, [], [], []⟩
  | .stageBegin => some ⟨.stageWriteBegin, 0, 0, 0, c.path, [], []⟩
  | .stageChunk => some ⟨.stageWriteChunk, 0, c.transactionId, c.cursor, [], [], c.piece⟩
  | .stageCommit => some ⟨.stageWriteCommit, 0, c.transactionId, 0, [], [], []⟩
  | .stageAbort => some ⟨.stageWriteAbort, 0, c.transactionId, 0, [], [], []⟩
  | .read => some ⟨.read, 0, 0, c.cursor, c.path, [], []⟩
  | .list => some ⟨.list, 0, 0, c.cursor, c.path, [], []⟩
  | .idle => none

def request : Option SentRequest := c.content.bind fun request => request.encode c.requestId

/-! ### Results -/

def append (bytes : List UInt8) : StorageClient :=
  { c with result := c.result ++ bytes.take (maxOutputBytes - c.result.length) }

/-- A command comes to its end. -/
def finished (status : StorageApiStatus) : StorageClient :=
  { c with lastStatus := status, phase := .idle, busy := false, done := true }

/-- The text of a failure in place of the result so far. -/
def reporting (text : List UInt8) : StorageClient := { c with result := [], cancelled := false }.append text

def fail (status : StorageApiStatus) : StorageClient :=
  if c.cancelled then (c.reporting cancelledText).finished status else (c.reporting (statusText status)).finished status

def succeed : StorageClient :=
  match c.work with
  | .touch | .write | .touchWrite | .remove | .move => (c.append okText).finished .ok
  | .cat => (c.append lineEnd).finished .ok
  | _ => c.finished .ok

/-- Only the work of the storage proof aborts its transaction after a successful operation. -/
def operationAborts : Bool := c.work == .abortProof

/-! ### Cancelling and responses -/

def cancel : StorageClient :=
  if c.busy = false then c
  else
    let c := { c with cancelled := true, failure := .unsupported }
    if c.sent then c
    else if c.transactionId = 0 then c.fail .unsupported
    else
      match c.phase with
      | .stageBegin | .stageChunk | .stageCommit => { c with phase := .stageAbort }.nextRequest
      | _ => { c with phase := .abort }.nextRequest

/-- The phase that follows a chunk or the beginning of a staged write. -/
def staging : StorageClient := { c with phase := if c.cursor ≥ c.data.length then .stageCommit else .stageChunk }.nextRequest

/-- A response other than `Ok`. -/
def handleRefusal (status : StorageApiStatus) : StorageClient :=
  if c.transactionId = 0 then c.fail status
  else
    match c.phase with
    | .operation => { c with failure := status, phase := .abort }.nextRequest
    | .stageChunk | .stageCommit => { c with failure := status, phase := .stageAbort }.nextRequest
    | _ => c.fail status

def handleResponse (response : StorageApiResponse) : StorageClient :=
  if response.status ≠ .ok then c.handleRefusal response.status
  else
    match c.phase with
    | .begin =>
      if response.transactionId = 0 then c.fail .invalid
      else { c with transactionId := response.transactionId, phase := .operation }.nextRequest
    | .stageBegin =>
      if response.transactionId = 0 then c.fail .invalid
      else
        { c with
          transactionId := response.transactionId,
          phase := if c.data.length = 0 then .stageCommit else .stageChunk }.nextRequest
    | .stageChunk => { c with cursor := min (c.cursor + min (c.data.length - c.cursor) stageChunkBytes) (2 ^ 32 - 1) }.staging
    | .stageCommit => c.succeed
    | .stageAbort => c.fail c.failure
    | .operation => { c with phase := if c.operationAborts then .abort else .commit }.nextRequest
    | .commit => c.succeed
    | .abort => c.fail c.failure
    | .read =>
      if response.data.isEmpty && response.more then c.fail .invalid
      else
        let c := { c.append response.data with cursor := min (c.cursor + response.data.length) (2 ^ 32 - 1) }
        if response.more ∧ c.result.length < maxOutputBytes then c.nextRequest else c.succeed
    | .list =>
      let c := if response.data.length + 2 ≤ maxOutputBytes - c.result.length then (c.append response.data).append lineEnd else c
      let c := { c with cursor := min (c.cursor + 1) (2 ^ 32 - 1) }
      if response.more ∧ c.result.length < maxOutputBytes then c.nextRequest else c.succeed
    | .idle => c.fail .invalid

/-- The part of `drive` that looks at a message. -/
def consume (message : Option StorageApiResponse) : StorageClient :=
  match message with
  | none => c.fail .invalid
  | some response =>
    if response.requestId ≠ c.requestId then c.fail .stale
    else if c.cancelled then
      let c := { c with transactionId := if c.transactionId = 0 then response.transactionId else c.transactionId }
      if c.transactionId = 0 then c.fail .unsupported else { c with phase := .abort }.nextRequest
    else c.handleResponse response

def drive (t : Transport) : Bool × StorageClient × Transport :=
  if c.busy = false then (false, c, t)
  else if c.sent = false then
    match c.request with
    | none => (true, c.fail .invalid, t)
    | some request =>
      match t.send request with
      | (.ok, t) => (true, { c with sent := true }, t)
      | (.full, t) => (false, c, t)
      | (status, t) => (true, c.fail (storageIpcError status), t)
  else
    match t.receive with
    | (.ok, message, t) => (true, { c with sent := false }.consume message, t)
    | (.empty, _, t) => (false, c, t)
    | (status, _, t) => (true, c.fail (storageIpcError status), t)

end StorageClient

end LogOS.Flow
