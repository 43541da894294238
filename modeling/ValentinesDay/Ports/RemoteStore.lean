import ValentinesDay.Ports.LocalDocuments

/-!
# The remote store of the Firestore client

Up to ten batches of the mutation queue are on their way to the backend.  They
are sent over a stream that is opened on demand, needs credentials and a
handshake, backs off after an error, and closes when idle.

`RemoteStore` is the part of the class that sends writes, with the stream it
owns and the local store it reads from; its events are the callbacks of the
credentials provider, of gRPC, of the timers and of the network, and the calls
of the app.  A callback the stream does not wait for is dropped, as the close
count of the stream sees to.  The stream's token is left out.
-/

namespace ValentinesDay.Ports.WritePipeline

open ValentinesDay.Ports.Runtime
open ValentinesDay.Ports.Mutations
open ValentinesDay.Ports.MutationQueue
open ValentinesDay.Ports.LocalDocuments

/-! ## Errors -/

/-- `Error`, the codes of a `Status`. -/
inductive ErrorCode where
  | kErrorOk
  | kErrorCancelled
  | kErrorUnknown
  | kErrorInvalidArgument
  | kErrorDeadlineExceeded
  | kErrorNotFound
  | kErrorAlreadyExists
  | kErrorPermissionDenied
  | kErrorResourceExhausted
  | kErrorFailedPrecondition
  | kErrorAborted
  | kErrorOutOfRange
  | kErrorUnimplemented
  | kErrorInternal
  | kErrorUnavailable
  | kErrorDataLoss
  | kErrorUnauthenticated
  deriving DecidableEq, Repr

/-- `IsPermanentError`. -/
def isPermanentError : ErrorCode → Except Crash Bool
  | .kErrorOk => .error (.hardAssert "Treated status OK as error")
  | .kErrorCancelled | .kErrorUnknown | .kErrorDeadlineExceeded
  | .kErrorResourceExhausted | .kErrorInternal | .kErrorUnavailable
  | .kErrorUnauthenticated => .ok false
  | .kErrorInvalidArgument | .kErrorNotFound | .kErrorAlreadyExists
  | .kErrorPermissionDenied | .kErrorFailedPrecondition | .kErrorAborted
  | .kErrorOutOfRange | .kErrorUnimplemented | .kErrorDataLoss => .ok true

/-- `IsPermanentWriteError`: an aborted write is tried again. -/
def isPermanentWriteError (status : ErrorCode) : Except Crash Bool :=
  (isPermanentError status).bind fun permanent => .ok (permanent && status ≠ .kErrorAborted)

/-! ## The stream -/

/-- `Stream::State`. -/
inductive StreamState where
  | initial
  | starting
  | opened
  | error
  | backoff
  deriving DecidableEq, Repr

/-- What the client writes to the stream. -/
inductive Request where
  | handshake
  | writeMutations (mutations : List Mutation)
  deriving DecidableEq

/-- `Stream` with what `WriteStream` adds.  Of a gRPC stream are kept the
requests written to it that have not been answered. -/
structure WriteStream where
  state : StreamState
  idlenessTimer : Bool
  grpcStream : Option (List Request)
  handshakeComplete : Bool
  deriving DecidableEq

namespace WriteStream

variable (stream : WriteStream)

/-- `IsOpen`. -/
def isOpen : Bool := stream.state = .opened

/-- `IsStarted`. -/
def isStarted : Bool :=
  stream.state = .starting ∨ stream.state = .backoff ∨ stream.isOpen

/-- `Start`: credentials are requested, after an error only when the backoff has
elapsed. -/
def start : Except Crash WriteStream :=
  if stream.state = .error then .ok { stream with state := .backoff }
  else if stream.state ≠ .initial then .error (.hardAssert "Already started")
  else .ok { stream with state := .starting }

/-- `InhibitBackoff`. -/
def inhibitBackoff : Except Crash WriteStream :=
  if stream.isStarted then
    .error (.hardAssert "Can only cancel backoff in a stopped state (was %s)")
  else .ok { stream with state := .initial }

/-- `MarkIdle`. -/
def markIdle : WriteStream :=
  if stream.isOpen then { stream with idlenessTimer := true } else stream

/-- `Write`, which cancels the idle timer. -/
def write (request : Request) : Except Crash WriteStream :=
  if ¬stream.isOpen then .error (.hardAssert "Cannot write when the stream is not open.")
  else .ok
    { stream with
      idlenessTimer := false
      grpcStream := stream.grpcStream.map (· ++ [request]) }

/-- `WriteStream::WriteHandshake`. -/
def writeHandshake : Except Crash WriteStream :=
  if ¬stream.isOpen then
    .error (.hardAssert "Writing handshake requires an opened stream")
  else if stream.handshakeComplete then
    .error (.hardAssert "Handshake already completed")
  else stream.write .handshake

/-- `WriteStream::WriteMutations`. -/
def writeMutations (mutations : List Mutation) : Except Crash WriteStream :=
  if ¬stream.isOpen then
    .error (.hardAssert "Writing mutations requires an opened stream")
  else if ¬stream.handshakeComplete then
    .error (.hardAssert "Handshake must be complete before writing mutations")
  else stream.write (.writeMutations mutations)

end WriteStream

/-! ## `RemoteStore` -/

/-- How many batches may be on their way. -/
def kMaxPendingWrites : Nat := 10

/-- `RemoteStore`, as far as writes go, with the local store it reads from. -/
structure RemoteStore where
  localStore : LocalStore
  isNetworkEnabled : Bool
  writeStream : WriteStream
  writePipeline : List MutationBatch

namespace RemoteStore

variable (r : RemoteStore)

/-- `ShouldStartWriteStream`. -/
def shouldStartWriteStream : Bool :=
  r.isNetworkEnabled && !r.writeStream.isStarted && r.writePipeline ≠ []

/-- `StartWriteStream`. -/
def startWriteStream : Except Crash RemoteStore :=
  if ¬r.shouldStartWriteStream then
    .error (.hardAssert
      "StartWriteStream called when ShouldStartWriteStream is false.")
  else r.writeStream.start.bind fun stream => .ok { r with writeStream := stream }

/-- The last lines of `FillWritePipeline` and of `OnWriteStreamClose`. -/
def startIfNeeded : Except Crash RemoteStore :=
  if r.shouldStartWriteStream then r.startWriteStream else .ok r

/-- `CanAddToWritePipeline`. -/
def canAddToWritePipeline : Bool :=
  r.isNetworkEnabled && r.writePipeline.length < kMaxPendingWrites

/-- `AddToWritePipeline`. -/
def addToWritePipeline (batch : MutationBatch) : Except Crash RemoteStore :=
  if ¬r.canAddToWritePipeline then
    .error (.hardAssert "AddToWritePipeline called when pipeline is full")
  else
    let r' := { r with writePipeline := r.writePipeline ++ [batch] }
    if r.writeStream.isOpen && r.writeStream.handshakeComplete then
      (r.writeStream.writeMutations batch.mutations).bind fun stream =>
        .ok { r' with writeStream := stream }
    else .ok r'

/-- The loop of `FillWritePipeline`.  Each turn adds a batch, so no more turns
than there are places are needed. -/
def fillFrom : Nat → Option Nat → RemoteStore → Except Crash RemoteStore
  | 0, _, r => .ok r
  | turns + 1, lastBatchIdRetrieved, r =>
      if ¬r.canAddToWritePipeline then .ok r
      else
        match r.localStore.mutationQueue.nextMutationBatchAfterBatchId
            lastBatchIdRetrieved with
        | none =>
            if r.writePipeline = [] then
              .ok { r with writeStream := r.writeStream.markIdle }
            else .ok r
        | some batch => (r.addToWritePipeline batch).bind (fillFrom turns (some batch.batchId))

/-- `FillWritePipeline`. -/
def fillWritePipeline : Except Crash RemoteStore :=
  (fillFrom (kMaxPendingWrites + 1) (r.writePipeline.getLast?.map (·.batchId)) r).bind
    startIfNeeded

/-! ### Callbacks of the stream -/

/-- `OnWriteStreamOpen`. -/
def onWriteStreamOpen : Except Crash RemoteStore :=
  r.writeStream.writeHandshake.bind fun stream => .ok { r with writeStream := stream }

/-- `OnWriteStreamHandshakeComplete`: the whole pipeline is sent. -/
def onWriteStreamHandshakeComplete : Except Crash RemoteStore :=
  (r.writePipeline.foldlM (fun (stream : WriteStream) write =>
    stream.writeMutations write.mutations) r.writeStream).bind fun stream =>
      .ok { r with writeStream := stream }

/-- `SyncEngine::HandleSuccessfulWrite`. -/
def handleSuccessfulWrite (result : LocalStore.MutationBatchResult) :
    Except Crash RemoteStore :=
  (r.localStore.acknowledgeBatch result).bind fun changed =>
    .ok { r with localStore := changed.2 }

/-- `SyncEngine::HandleRejectedWrite`. -/
def handleRejectedWrite (batchId : Nat) : Except Crash RemoteStore :=
  (r.localStore.rejectBatch batchId).bind fun changed =>
    .ok { r with localStore := changed.2 }

/-- The constructor of `MutationBatchResult`. -/
def mutationBatchResult (batch : MutationBatch) (commitVersion : Nat)
    (versions : List Nat) : Except Crash LocalStore.MutationBatchResult :=
  if batch.mutations.length = versions.length then .ok ⟨batch, commitVersion, versions⟩
  else .error (.hardAssert "Number of mutations sent %s must equal results received %s")

/-- `OnWriteStreamMutationResult`: the front of the pipeline is answered. -/
def onWriteStreamMutationResult (commitVersion : Nat) (versions : List Nat) :
    Except Crash RemoteStore :=
  match r.writePipeline with
  | [] => .error (.hardAssert "Got result for empty write pipeline")
  | batch :: rest =>
      (mutationBatchResult batch commitVersion versions).bind fun result =>
        (({ r with writePipeline := rest } : RemoteStore).handleSuccessfulWrite result).bind
          fillWritePipeline

/-- `HandleHandshakeError`: only the stream token depends on the status. -/
def handleHandshakeError (status : ErrorCode) : Except Crash RemoteStore :=
  (isPermanentError status).bind fun _ => .ok r

/-- `HandleWriteError`: a permanent error is one about the front of the
pipeline. -/
def handleWriteError (status : ErrorCode) : Except Crash RemoteStore :=
  (isPermanentWriteError status).bind fun permanent =>
    if ¬permanent then .ok r
    else
      match r.writePipeline with
      | [] => .error (.hardAssert "front() of an empty pipeline")
      | batch :: rest =>
          r.writeStream.inhibitBackoff.bind fun stream =>
            (({ r with writePipeline := rest, writeStream := stream } :
              RemoteStore).handleRejectedWrite batch.batchId).bind fillWritePipeline

/-- `OnWriteStreamClose`. -/
def onWriteStreamClose (status : ErrorCode) : Except Crash RemoteStore :=
  if status = .kErrorOk then
    if r.shouldStartWriteStream then
      .error (.hardAssert "Write stream was stopped gracefully while still needed.")
    else .ok r
  else
    (if r.writePipeline = [] then .ok r
      else if r.writeStream.handshakeComplete then r.handleWriteError status
      else r.handleHandshakeError status).bind startIfNeeded

/-- `Stream::Close` and `WriteStream::NotifyStreamClose`: the handshake counts
as complete until the store has been notified. -/
def close (status : ErrorCode) : Except Crash RemoteStore :=
  if status = .kErrorOk ∧ ¬r.writeStream.isStarted then .ok r
  else if ¬r.writeStream.isStarted then
    .error (.hardAssert "Trying to close a non-started stream")
  else
    let stream : WriteStream :=
      { r.writeStream with
        state := if status = .kErrorOk then .initial else .error
        idlenessTimer := false
        grpcStream := none }
    (({ r with writeStream := stream } : RemoteStore).onWriteStreamClose status).bind fun r' =>
      .ok { r' with writeStream := { r'.writeStream with handshakeComplete := false } }

/-! ### The network -/

/-- `EnableNetwork`. -/
def enableNetwork : Except Crash RemoteStore :=
  ({ r with isNetworkEnabled := true } : RemoteStore).fillWritePipeline

/-- `DisableNetworkInternal`. -/
def disableNetworkInternal : Except Crash RemoteStore :=
  (r.close .kErrorOk).bind fun r' => .ok { r' with writePipeline := [] }

/-- `DisableNetwork`. -/
def disableNetwork : Except Crash RemoteStore :=
  ({ r with isNetworkEnabled := false } : RemoteStore).disableNetworkInternal

/-- `RestartNetwork`. -/
def restartNetwork : Except Crash RemoteStore :=
  ({ r with isNetworkEnabled := false } : RemoteStore).disableNetworkInternal.bind fun r' =>
    r'.writeStream.inhibitBackoff.bind fun stream =>
      ({ r' with writeStream := stream } : RemoteStore).enableNetwork

end RemoteStore

/-! ## Events -/

/-- A stream that has not been started yet. -/
def closedStream : WriteStream where
  state := .initial
  idlenessTimer := false
  grpcStream := none
  handshakeComplete := false

/-- A process starts on what the last one has stored. -/
def launched (localStore : LocalStore) : Except Crash RemoteStore :=
  ({ localStore := { localStore with mutationQueue := localStore.mutationQueue.start }
     isNetworkEnabled := false
     writeStream := closedStream
     writePipeline := [] } : RemoteStore).enableNetwork

/-- What may happen to the store. -/
inductive ClientEvent where
  | write (mutations : List Mutation)
  | credentials (status : ErrorCode)
  | streamStart
  | response (commitVersion : Nat) (versions : List Nat)
  | finish (status : ErrorCode)
  | backoffElapsed
  | idleTimeout
  | enableNetwork
  | disableNetwork
  | connectivityChanged
  | remoteEvent (event : LocalStore.RemoteEvent)
  | relaunch

namespace RemoteStore

variable (r : RemoteStore)

/-- `FirestoreClient::WriteMutations`. -/
def writeMutations (mutations : List Mutation) : Except Crash RemoteStore :=
  if mutations = [] then .ok r
  else
    (r.localStore.writeLocally mutations).bind fun result =>
      ({ r with localStore := result.2.2 } : RemoteStore).fillWritePipeline

/-- `ResumeStartWithCredentials`. -/
def resumeStartWithCredentials (status : ErrorCode) : Except Crash RemoteStore :=
  if status ≠ .kErrorOk then r.close status
  else .ok { r with writeStream := { r.writeStream with grpcStream := some [] } }

/-- `OnStreamRead` with what `NotifyStreamResponse` decodes. -/
def onStreamRead (unanswered : List Request) (commitVersion : Nat) (versions : List Nat) :
    Except Crash RemoteStore :=
  if r.writeStream.handshakeComplete then
    ({ r with writeStream := { r.writeStream with grpcStream := some unanswered } } :
      RemoteStore).onWriteStreamMutationResult commitVersion versions
  else
    ({ r with writeStream :=
        { r.writeStream with grpcStream := some unanswered, handshakeComplete := true } } :
      RemoteStore).onWriteStreamHandshakeComplete

/-- `OnWatchStreamChange`: a snapshot older than the last one is passed over. -/
def onWatchStreamChange (event : LocalStore.RemoteEvent) : Except Crash RemoteStore :=
  if event.snapshotVersion ≠ 0 ∧
      event.snapshotVersion ≥ r.localStore.lastRemoteSnapshotVersion then
    (r.localStore.applyRemoteEvent event).bind fun changed =>
      .ok { r with localStore := changed.2 }
  else .ok r

/-- One event; a callback nobody waits for is dropped. -/
def step : ClientEvent → Except Crash RemoteStore
  | .write mutations => r.writeMutations mutations
  | .credentials status =>
      if r.writeStream.state = .starting ∧ r.writeStream.grpcStream = none then
        r.resumeStartWithCredentials status
      else .ok r
  | .streamStart =>
      if r.writeStream.state = .starting ∧ r.writeStream.grpcStream.isSome then
        ({ r with writeStream := { r.writeStream with state := .opened } } :
          RemoteStore).onWriteStreamOpen
      else .ok r
  | .response commitVersion versions =>
      match r.writeStream.grpcStream with
      | some unanswered =>
          if r.writeStream.isOpen then
            r.onStreamRead unanswered.tail commitVersion versions
          else .ok r
      | none => .ok r
  | .finish status =>
      if r.writeStream.grpcStream.isSome then r.close status else .ok r
  | .backoffElapsed =>
      if r.writeStream.state = .backoff then
        ({ r.writeStream with state := .initial } : WriteStream).start.bind fun stream =>
          .ok { r with writeStream := stream }
      else .ok r
  | .idleTimeout => if r.writeStream.idlenessTimer then r.close .kErrorOk else .ok r
  | .enableNetwork => r.enableNetwork
  | .disableNetwork => r.disableNetwork
  | .connectivityChanged => if r.isNetworkEnabled then r.restartNetwork else .ok r
  | .remoteEvent event => r.onWatchStreamChange event
  | .relaunch => launched r.localStore

/-- What the backend is relied on for: it answers requests in order, each
mutation of one with a version, and ends no stream gracefully under a write. -/
def Conforms : ClientEvent → Prop
  | .response _ versions =>
      match r.writeStream.grpcStream with
      | some (.handshake :: _) => True
      | some (.writeMutations mutations :: _) => versions.length = mutations.length
      | _ => False
  | .finish status => status = .kErrorOk → r.writePipeline = []
  | _ => True

end RemoteStore

end ValentinesDay.Ports.WritePipeline
