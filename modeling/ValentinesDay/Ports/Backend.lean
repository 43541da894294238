import ValentinesDay.Ports.WritePipeline
import ValentinesDay.Verified.Ledger

/-!
# The client and its backend

The whole way of a write: from the call of the app over the queue and the stream
to the backend, and back as an acknowledgement and in snapshots.  The client is
the `RemoteStore` of the write pipeline.

The backend is not part of the repository.  Here it is any `Backend` that does
what the client's protocol says of it (`Backend.Documented`): rules of its own
decide which writes it carries out, with whatever they read; it answers a write
with the time of the last change of the document, which a write that changes
nothing leaves as it was; and the versions of documents are such times.

The connection is no better than a connection is: a stream may end at any time,
the answers on it are lost, and the client sends again what it has no answer
for.  Snapshots come at any time, with documents as they were at some time up to
now.  One phone writes; no other client changes the documents.
-/

namespace ValentinesDay.Ports.BackendSync

open ValentinesDay.Verified.Ledger
open ValentinesDay.Verified.Run
open ValentinesDay.Ports.Runtime
open ValentinesDay.Ports.Firestore
open ValentinesDay.Ports.Persistence
open ValentinesDay.Ports.Mutations
open ValentinesDay.Ports.MutationQueue
open ValentinesDay.Ports.LocalDocuments
open ValentinesDay.Ports.WritePipeline

/-! ## The backend -/

/-- A `WriteResponse` with the one `WriteResult` of a batch of the app. -/
structure Answer where
  commitTime : Nat
  updateTime : Nat
  deriving DecidableEq

/-- A backend, as far as a client can tell. -/
structure Backend (σ : Type) where
  /-- It carries a write out, or refuses it with a status. -/
  commit : σ → Mutation → Except ErrorCode (σ × Answer)
  data : σ → DocumentKey → Option ObjectValue
  /-- The `update_time` of a document, the `read_time` of a missing one. -/
  version : σ → DocumentKey → Nat
  /-- The time of the last commit. -/
  time : σ → Nat

/-- A document as the client decodes it. -/
def Backend.document {σ : Type} (backend : Backend σ) (s : σ) (key : DocumentKey) :
    MaybeDocument :=
  (backend.data s key).elim (.noDocument (backend.version s key) false) fun data =>
    .document data (backend.version s key) .kSynced

/-- What the protocol says of a backend.  The fields are about one write each. -/
structure Backend.Documented {σ : Type} (backend : Backend σ) : Prop where
  /-- No write is refused with a status that asks to try again. -/
  permanent : ∀ {s m status}, backend.commit s m = .error status →
    isPermanentWriteError status = .ok true
  /-- `current_document` is checked. -/
  precondition : ∀ {s m s' answer}, backend.commit s m = .ok (s', answer) →
    m.precondition.allows (backend.data s m.key) = true
  /-- A write changes the fields it names of the document it names. -/
  carriedOut : ∀ {s m s' answer}, backend.commit s m = .ok (s', answer) → m.FromApp →
    ∀ key, backend.data s' key = m.actAt key (backend.data s key)
  /-- Commits have rising times. -/
  later : ∀ {s m s' answer}, backend.commit s m = .ok (s', answer) →
    backend.time s < backend.time s'
  /-- The version of a document that has changed is the time of the commit. -/
  changed : ∀ {s m s' answer}, backend.commit s m = .ok (s', answer) →
    ∀ key, backend.data s' key ≠ backend.data s key → backend.version s' key = backend.time s'
  /-- Without a change the update time stays. -/
  unchanged : ∀ {s m s' answer}, backend.commit s m = .ok (s', answer) →
    ∀ key, backend.data s' key = backend.data s key → (backend.data s key).isSome →
      backend.version s' key = backend.version s key
  /-- A missing document is not read earlier than before. -/
  missing : ∀ {s m s' answer}, backend.commit s m = .ok (s', answer) →
    ∀ key, backend.data s' key = none → backend.version s key ≤ backend.version s' key
  /-- The answer has the update time of the document. -/
  answered : ∀ {s m s' answer}, backend.commit s m = .ok (s', answer) →
    answer.updateTime = backend.version s' m.key
  /-- No document has the version `SnapshotVersion::None()`, or one to come. -/
  dated : ∀ s key, 0 < backend.version s key ∧ backend.version s key ≤ backend.time s

/-! ## The two parties -/

/-- `past` are the states of the backend before the present one, the last first,
and `log` the writes it has carried out, each with its number in the order of
the calls.  `answers` and then `refusal` are on their way on the open stream.

`settled` are the writes the client has learned the outcome of, `lost` the
documents of answers that were lost, and `refusedAgain` whether a write was
refused that had been carried out before. -/
structure Sync (σ : Type) where
  client : RemoteStore
  backend : σ
  past : List σ
  log : List (Stamped (Mutation × Nat))
  answers : List Answer
  refusal : Option ErrorCode
  settled : List (Mutation × Bool)
  lost : List DocumentKey
  refusedAgain : Bool

/-- What may happen.  In a snapshot each document comes with the number of
commits since it was as it is sent. -/
inductive SyncEvent where
  | write (w : Write)
  | client (e : ClientEvent)
  | handshake
  | process
  | deliver
  | disconnect (status : ErrorCode)
  | snapshot (version : Nat) (sent : List (Nat × DocumentKey))

/-- Events the backend has no part in. -/
def isLocal : ClientEvent → Bool
  | .credentials _ | .streamStart | .backoffElapsed | .idleTimeout | .enableNetwork
  | .disableNetwork | .connectivityChanged | .relaunch => true
  | .write _ | .response _ _ | .finish _ | .remoteEvent _ => false

namespace Sync

variable {σ : Type} (x : Sync σ)

/-- The writes the client has no answer for. -/
def pending : List Mutation :=
  x.client.localStore.mutationQueue.mutations.rows.flatMap (·.mutations)

/-- The accepted writes, as far as the client knows. -/
def acknowledged : List Mutation := (x.settled.filter (·.2)).map (·.1)

/-- What was on its way on a stream that has ended. -/
def lose : Sync σ :=
  { x with
    answers := []
    refusal := none
    lost := x.lost ++ (x.pending.take x.answers.length).map (·.key) }

/-- An event at the client.  It takes several of them to get a stream through
the handshake, so the stream after an event is the one before if it is through. -/
def tell (e : ClientEvent) : Except Crash (Sync σ) :=
  (x.client.step e).bind fun client =>
    .ok (if client.writeStream.handshakeComplete then { x with client := client }
      else ({ x with client := client } : Sync σ).lose)

/-- The mutations of the batch whose answer comes next. -/
def front : List Mutation := (x.client.writePipeline.head?.map (·.mutations)).getD []

/-- The backend answers the handshake. -/
def handshake : Except Crash (Sync σ) :=
  match x.client.writeStream.grpcStream with
  | some (.handshake :: _) => x.tell (.response 0 [])
  | _ => .ok x

/-- Whether the backend has carried out a write that is about to be refused. -/
def carriedOut (m : Mutation) : Bool :=
  (m, x.settled.length) ∈ x.log.map (·.op)

/-- The next answer arrives, or the end of the stream. -/
def deliver : Except Crash (Sync σ) :=
  match x.answers, x.refusal with
  | answer :: answers, _ =>
      ({ x with
        answers := answers
        settled := x.settled ++ x.front.map fun m => (m, true) } : Sync σ).tell
          (.response answer.commitTime [answer.updateTime])
  | [], some status =>
      ({ x with
        refusal := none
        settled := x.settled ++ x.front.map fun m => (m, false)
        refusedAgain := x.refusedAgain || x.front.any x.carriedOut } : Sync σ).tell
          (.finish status)
  | [], none => .ok x

/-- The connection breaks, with no status that speaks of a write; an idle stream
may also be ended gracefully. -/
def disconnect (status : ErrorCode) : Except Crash (Sync σ) :=
  if x.client.Conforms (.finish status) ∧
      (x.client.writeStream.handshakeComplete → isPermanentWriteError status ≠ .ok true) then
    x.tell (.finish status)
  else .ok x

section Step

variable (backend : Backend σ)

/-- The backend turns to the next request of the stream. -/
def process : Sync σ :=
  match x.refusal, (x.client.writeStream.grpcStream.getD [])[x.answers.length]? with
  | none, some (.writeMutations [m]) =>
      match backend.commit x.backend m with
      | .ok (next, answer) =>
          { x with
            backend := next
            past := x.backend :: x.past
            log := x.log ++ [⟨(m, x.settled.length + x.answers.length), backend.time next⟩]
            answers := x.answers ++ [answer] }
      | .error status => { x with refusal := some status }
  | _, _ => x

/-- The documents of a snapshot. -/
def sentDocuments (sent : List (Nat × DocumentKey)) : List KeyedDocument :=
  sent.filterMap fun e =>
    (x.backend :: x.past)[e.1]?.map fun s => ⟨e.2, backend.document s e.2⟩

/-- A snapshot arrives. -/
def snapshot (version : Nat) (sent : List (Nat × DocumentKey)) : Except Crash (Sync σ) :=
  x.tell (.remoteEvent ⟨version, x.sentDocuments backend sent⟩)

/-- One event. -/
def step : SyncEvent → Except Crash (Sync σ)
  | .write w => x.tell (.write [toMutation w])
  | .client e => if isLocal e then x.tell e else .ok x
  | .handshake => x.handshake
  | .process => .ok (x.process backend)
  | .deliver => x.deliver
  | .disconnect status => x.disconnect status
  | .snapshot version sent => x.snapshot backend version sent

end Step

end Sync

section Runs

variable {σ : Type}

/-- A fresh installation, with the backend in some state. -/
def started (initial : σ) : Except Crash (Sync σ) :=
  (launched .fresh).bind fun client => .ok
    { client := client
      backend := initial
      past := []
      log := []
      answers := []
      refusal := none
      settled := []
      lost := []
      refusedAgain := false }

/-- After the events. -/
def reached (backend : Backend σ) (initial : σ) (es : List SyncEvent) :
    Except Crash (Sync σ) :=
  exec (halting fun x e => x.step backend e) (started initial) es

end Runs

/-- The calls of an event. -/
def SyncEvent.writes : SyncEvent → List Write
  | .write w => [w]
  | _ => []

/-- The calls of the app. -/
def writesOf (es : List SyncEvent) : List Write := es.flatMap (·.writes)

/-- What the network does, the timers, the provider of credentials and the
backend, without the app. -/
def SyncEvent.isOutside : SyncEvent → Bool
  | .client (.credentials _) | .client .streamStart | .client .backoffElapsed => true
  | .handshake | .process | .deliver => true
  | _ => false

theorem SyncEvent.writes_of_isOutside {e : SyncEvent} (h : e.isOutside = true) :
    e.writes = [] := by
  cases e with
  | write w => cases h
  | _ => rfl

/-! ## A backend of one hunt

A concrete one: a rule decides on the document and the write. -/

/-- The documents with their versions. -/
structure Held where
  now : Nat
  data : DocumentKey → Option ObjectValue
  version : DocumentKey → Nat
  dated : ∀ key, 0 < version key ∧ version key ≤ now

/-- After a write that is carried out. -/
def Held.write (s : Held) (m : Mutation) : Held where
  now := s.now + 1
  data key := appAt key (s.data key) m
  version key := if appAt key (s.data key) m = s.data key then s.version key else s.now + 1
  dated key := by
    have hdated := s.dated key
    split
    · exact ⟨hdated.1, hdated.2.trans (Nat.le_succ _)⟩
    · exact ⟨Nat.succ_pos _, le_rfl⟩

/-- Writes that break the rule are refused, and updates of missing documents. -/
def heldBackend (rule : Option ObjectValue → Mutation → Bool) : Backend Held where
  commit s m :=
    if rule (s.data m.key) m = false then .error .kErrorPermissionDenied
    else if m.precondition.allows (s.data m.key) = false then .error .kErrorNotFound
    else .ok (s.write m, ⟨s.now + 1, (s.write m).version m.key⟩)
  data s key := s.data key
  version s key := s.version key
  time s := s.now

theorem commit_heldBackend {rule : Option ObjectValue → Mutation → Bool} {s s' : Held}
    {m : Mutation} {answer : Answer} (h : (heldBackend rule).commit s m = .ok (s', answer)) :
    m.precondition.allows (s.data m.key) = true ∧ s' = s.write m ∧
      answer.updateTime = (s.write m).version m.key := by
  change (if rule (s.data m.key) m = false then _ else _) = _ at h
  split at h
  · cases h
  · split at h
    · cases h
    · next hallows =>
      cases h
      exact ⟨by simpa using hallows, rfl, rfl⟩

/-- It is a backend as documented. -/
theorem documented_heldBackend (rule : Option ObjectValue → Mutation → Bool) :
    (heldBackend rule).Documented where
  permanent {s m status} h := by
    change (if rule (s.data m.key) m = false then _ else _) = _ at h
    split at h
    · cases h
      rfl
    · split at h
      · cases h
        rfl
      · cases h
  precondition h := (commit_heldBackend h).1
  carriedOut h hm key := by
    obtain ⟨-, rfl, -⟩ := commit_heldBackend h
    exact appAt_of_fromApp hm key _
  later h := by
    obtain ⟨-, rfl, -⟩ := commit_heldBackend h
    exact Nat.lt_succ_self _
  changed h key hne := by
    obtain ⟨-, rfl, -⟩ := commit_heldBackend h
    exact if_neg hne
  unchanged h key heq _ := by
    obtain ⟨-, rfl, -⟩ := commit_heldBackend h
    exact if_pos heq
  missing {s m s' answer} h key hnone := by
    obtain ⟨-, rfl, -⟩ := commit_heldBackend h
    show s.version key ≤ if appAt key (s.data key) m = s.data key then _ else _
    split
    · exact le_rfl
    · exact (s.dated key).2.trans (Nat.le_succ _)
  answered h := by
    obtain ⟨-, rfl, hanswer⟩ := commit_heldBackend h
    exact hanswer
  dated s key := s.dated key

end ValentinesDay.Ports.BackendSync
