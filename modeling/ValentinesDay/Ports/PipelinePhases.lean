import ValentinesDay.Ports.RemoteStore

/-!
# The pipeline and its stream

What holds of the remote store between the events, and how filling the pipeline
and closing the stream keep it.

## Main results

* `Pipelined` — the pipeline is the front of the queue, and what the open stream
  waits for is the pipeline.
* `fillWritePipeline_ready` and `close_failed` — it holds again after the
  pipeline was filled, and after a stream failed.
-/

namespace ValentinesDay.Ports.WritePipeline

open ValentinesDay.Verified.Fallible
open ValentinesDay.Verified.OrderedTable
open ValentinesDay.Ports.Runtime
open ValentinesDay.Ports.Firestore
open ValentinesDay.Ports.Mutations
open ValentinesDay.Ports.MutationQueue
open ValentinesDay.Ports.LocalDocuments

/-! ## The invariant -/

/-- The shapes of the stream.  Whoever opens it has something to send, and the
idle timer runs on an empty pipeline only.  While a stream is closed it is
`held` that the handshake was complete. -/
inductive Phase (held : Bool) (pipeline : List MutationBatch) : WriteStream → Prop where
  | initial : Phase held pipeline ⟨.initial, false, none, held⟩
  | error : Phase held pipeline ⟨.error, false, none, held⟩
  | backoff (h : pipeline ≠ []) : Phase held pipeline ⟨.backoff, false, none, held⟩
  | authenticating (h : pipeline ≠ []) : Phase held pipeline ⟨.starting, false, none, held⟩
  | connecting (h : pipeline ≠ []) : Phase held pipeline ⟨.starting, false, some [], held⟩
  | shakingHands (h : pipeline ≠ []) :
      Phase held pipeline ⟨.opened, false, some [.handshake], false⟩
  | writing (idle : Bool) (h : idle → pipeline = []) :
      Phase held pipeline ⟨.opened, idle,
        some (pipeline.map fun batch => .writeMutations batch.mutations), true⟩

/-- What holds between the events. -/
structure Pipelined (r : RemoteStore) (s : PendingBatches) : Prop where
  queue : r.localStore.mutationQueue.Represents s
  pipeline : r.writePipeline =
    if r.isNetworkEnabled then s.batches.take kMaxPendingWrites else []
  phase : Phase false r.writePipeline r.writeStream
  off : r.isNetworkEnabled = false → r.writeStream.isStarted = false
  on : r.isNetworkEnabled = true → r.writePipeline ≠ [] → r.writeStream.isStarted = true

/-- A computation that no assertion ends. -/
abbrev Succeeds {α : Type} (P : α → Prop) (p : Except Crash α) : Prop :=
  Ends P (fun _ => False) p

/-! ### Filling the pipeline -/

section Fill

variable {held : Bool} {r : RemoteStore} {s : PendingBatches}

/-- The next batch is that of the next place. -/
theorem next_of_isPrefix {q : LevelDbMutationQueue} (h : q.Represents s)
    {pipeline : List MutationBatch} (hpre : pipeline <+: s.batches) :
    q.nextMutationBatchAfterBatchId (pipeline.getLast?.map (·.batchId)) =
      s.batches[pipeline.length]? := by
  rw [LevelDbMutationQueue.nextMutationBatchAfterBatchId, q.mutations.head?_seek, h.rows,
    s.find?_le]
  cases hlast : pipeline.getLast? with
  | none =>
      rw [List.getLast?_eq_none_iff.mp hlast]
      simp [batchIdAfter]
  | some batch =>
      have hget : pipeline[pipeline.length - 1]? = some batch := by
        rw [← List.getLast?_eq_getElem?, hlast]
      have hlt : pipeline.length - 1 < pipeline.length :=
        (List.getElem?_eq_some_iff.mp hget).1
      have hbatch : s.batches[pipeline.length - 1]? = some batch := by
        rw [List.prefix_iff_getElem?.mp hpre _ hlt, ← List.getElem?_eq_getElem hlt, hget]
      have hid := s.batchId_eq hbatch
      have hindex : batch.batchId + 1 - s.first = pipeline.length := by omega
      rw [Option.map_some, batchIdAfter, hindex]

theorem phase_markIdle {pipeline : List MutationBatch} {stream : WriteStream}
    (h : Phase held pipeline stream) (hempty : pipeline = []) :
    Phase held pipeline stream.markIdle := by
  cases h with
  | initial => exact .initial
  | error => exact .error
  | backoff hne => exact absurd hempty hne
  | authenticating hne => exact absurd hempty hne
  | connecting hne => exact absurd hempty hne
  | shakingHands hne => exact absurd hempty hne
  | writing idle hidle => exact .writing true fun _ => hempty

/-- A batch is sent at once on a stream that takes writes, else it waits. -/
theorem addToWritePipeline_ok (h : Phase held r.writePipeline r.writeStream)
    (hadd : r.canAddToWritePipeline) (batch : MutationBatch) :
    ∃ stream, r.addToWritePipeline batch =
        .ok { r with writePipeline := r.writePipeline ++ [batch], writeStream := stream } ∧
      Phase held (r.writePipeline ++ [batch]) stream ∧
      stream.isOpen = r.writeStream.isOpen := by
  obtain ⟨localStore, enabled, stream, pipeline⟩ := r
  have hne : pipeline ++ [batch] ≠ [] := by simp
  rw [RemoteStore.addToWritePipeline, if_neg (not_not.mpr hadd)]
  change Phase held pipeline stream at h
  cases h with
  | initial => exact ⟨_, rfl, .initial, rfl⟩
  | error => exact ⟨_, rfl, .error, rfl⟩
  | backoff => exact ⟨_, rfl, .backoff hne, rfl⟩
  | authenticating => exact ⟨_, rfl, .authenticating hne, rfl⟩
  | connecting => exact ⟨_, rfl, .connecting hne, rfl⟩
  | shakingHands => exact ⟨_, rfl, .shakingHands hne, rfl⟩
  | writing idle =>
      refine ⟨_, rfl, ?_, rfl⟩
      have hwriting : Phase held (pipeline ++ [batch]) _ :=
        .writing false fun h => absurd h (by decide)
      rw [List.map_append] at hwriting
      exact hwriting

/-- The pipeline is full or has the whole queue; nothing else has changed. -/
structure Filled (held : Bool) (r : RemoteStore) (s : PendingBatches) (r' : RemoteStore) :
    Prop where
  localStore : r'.localStore = r.localStore
  enabled : r'.isNetworkEnabled = true
  pipeline : r'.writePipeline = s.batches.take kMaxPendingWrites
  phase : Phase held r'.writePipeline r'.writeStream
  isOpen : r'.writeStream.isOpen = r.writeStream.isOpen

/-- The next batch of the queue makes a longer front. -/
theorem isPrefix_append_of_getElem? {pipeline batches : List MutationBatch}
    {batch : MutationBatch} (hpre : pipeline <+: batches)
    (hnext : batches[pipeline.length]? = some batch) : pipeline ++ [batch] <+: batches := by
  obtain ⟨hlt, rfl⟩ := List.getElem?_eq_some_iff.mp hnext
  exact List.concat_get_prefix hpre hlt

/-- A front that has all there is. -/
theorem eq_take_of_getElem?_eq_none {pipeline batches : List MutationBatch}
    (hpre : pipeline <+: batches) (hlength : pipeline.length ≤ kMaxPendingWrites)
    (hnext : batches[pipeline.length]? = none) :
    pipeline = batches.take kMaxPendingWrites := by
  have hall : pipeline = batches := hpre.eq_of_length_le (List.getElem?_eq_none_iff.mp hnext)
  rw [← hall, List.take_of_length_le hlength]

theorem fillFrom_filled (turns : Nat) (hqueue : r.localStore.mutationQueue.Represents s)
    (henabled : r.isNetworkEnabled = true) (hpre : r.writePipeline <+: s.batches)
    (hlength : r.writePipeline.length ≤ kMaxPendingWrites)
    (hturns : kMaxPendingWrites < turns + r.writePipeline.length)
    (hphase : Phase held r.writePipeline r.writeStream) :
    Succeeds (Filled held r s)
      (RemoteStore.fillFrom turns (r.writePipeline.getLast?.map (·.batchId)) r) := by
  induction turns generalizing r with
  | zero => omega
  | succ turns ih =>
      rw [RemoteStore.fillFrom]
      by_cases hadd : r.canAddToWritePipeline
      · rw [if_neg (not_not.mpr hadd), next_of_isPrefix hqueue hpre]
        have hlt : r.writePipeline.length < kMaxPendingWrites := by
          simp only [RemoteStore.canAddToWritePipeline, Bool.and_eq_true,
            decide_eq_true_eq] at hadd
          exact hadd.2
        cases hnext : s.batches[r.writePipeline.length]? with
        | none =>
            -- the whole queue is in the pipeline
            have hall := eq_take_of_getElem?_eq_none hpre hlength hnext
            by_cases hempty : r.writePipeline = []
            · rw [if_pos hempty]
              refine
                { localStore := rfl
                  enabled := henabled
                  pipeline := hall
                  phase := phase_markIdle hphase hempty
                  isOpen := ?_ }
              show r.writeStream.markIdle.isOpen = r.writeStream.isOpen
              unfold WriteStream.markIdle
              split <;> rfl
            · rw [if_neg hempty]
              exact ⟨rfl, henabled, hall, hphase, rfl⟩
        | some batch =>
            obtain ⟨stream, hok, hphase', hopen⟩ := addToWritePipeline_ok hphase hadd batch
            have hpre' := isPrefix_append_of_getElem? hpre hnext
            have hrest := ih (r := { r with
                writePipeline := r.writePipeline ++ [batch], writeStream := stream })
              hqueue henabled hpre' (by rw [List.length_append]; exact hlt)
              (by simp only [List.length_append, List.length_singleton]; omega) hphase'
            show Ends _ _ ((r.addToWritePipeline batch).bind _)
            rw [hok]
            have hlast : ((r.writePipeline ++ [batch]).getLast?.map (·.batchId)) =
                some batch.batchId := by simp
            show Ends _ _ (RemoteStore.fillFrom turns (some batch.batchId) _)
            rw [← hlast]
            refine hrest.mono ?_
            intro r' h
            exact ⟨h.localStore, h.enabled, h.pipeline, h.phase, h.isOpen.trans hopen⟩
      · -- no place is left
        rw [if_pos hadd]
        have hfull : r.writePipeline.length = kMaxPendingWrites := by
          simp only [RemoteStore.canAddToWritePipeline, henabled, Bool.true_and,
            decide_eq_true_eq] at hadd
          omega
        refine ⟨rfl, henabled, ?_, hphase, rfl⟩
        rw [← hfull]
        exact List.prefix_iff_eq_take.mp hpre

/-- The stream is started if there is something to send. -/
structure Ready (held : Bool) (r : RemoteStore) (s : PendingBatches) (r' : RemoteStore) :
    Prop extends Filled held r s r' where
  started : r'.writePipeline ≠ [] → r'.writeStream.isStarted = true

theorem startIfNeeded_ready {r' : RemoteStore} (h : Filled held r s r') :
    Succeeds (Ready held r s) r'.startIfNeeded := by
  unfold RemoteStore.startIfNeeded
  by_cases hshould : r'.shouldStartWriteStream
  · have hneeded := hshould
    simp only [RemoteStore.shouldStartWriteStream, Bool.and_eq_true, Bool.not_eq_true',
      decide_eq_true_eq] at hneeded
    obtain ⟨⟨-, hstopped⟩, hne⟩ := hneeded
    rw [if_pos hshould, RemoteStore.startWriteStream, if_neg (not_not.mpr hshould)]
    obtain ⟨hlocal, henabled, hpipeline, hphase, hopen⟩ := h
    obtain ⟨localStore, enabled, stream, pipeline⟩ := r'
    change Phase held pipeline stream at hphase
    cases hphase with
    | initial =>
        exact ⟨⟨hlocal, henabled, hpipeline, .authenticating hne, hopen⟩, fun _ => rfl⟩
    | error =>
        exact ⟨⟨hlocal, henabled, hpipeline, .backoff hne, hopen⟩, fun _ => rfl⟩
    | backoff => cases hstopped
    | authenticating => cases hstopped
    | connecting => cases hstopped
    | shakingHands => cases hstopped
    | writing => cases hstopped
  · rw [if_neg hshould]
    refine ⟨h, fun hne => ?_⟩
    cases hstarted : r'.writeStream.isStarted with
    | true => rfl
    | false =>
        simp [RemoteStore.shouldStartWriteStream, h.enabled, hstarted, hne] at hshould

theorem fillWritePipeline_ready (hqueue : r.localStore.mutationQueue.Represents s)
    (henabled : r.isNetworkEnabled = true) (hpre : r.writePipeline <+: s.batches)
    (hlength : r.writePipeline.length ≤ kMaxPendingWrites)
    (hphase : Phase held r.writePipeline r.writeStream) :
    Succeeds (Ready held r s) r.fillWritePipeline :=
  (fillFrom_filled (kMaxPendingWrites + 1) hqueue henabled hpre hlength (by omega)
    hphase).bind fun _ h => startIfNeeded_ready h

/-- Without a network nothing is fetched. -/
theorem fillWritePipeline_of_disabled (h : r.isNetworkEnabled = false) :
    r.fillWritePipeline = .ok r := by
  have hadd : ¬r.canAddToWritePipeline := by simp [RemoteStore.canAddToWritePipeline, h]
  have hstart : ¬r.shouldStartWriteStream := by simp [RemoteStore.shouldStartWriteStream, h]
  rw [RemoteStore.fillWritePipeline, RemoteStore.fillFrom, if_pos hadd]
  exact if_neg hstart

theorem Ready.pipelined {r' : RemoteStore} (h : Ready false r s r')
    (hqueue : r.localStore.mutationQueue.Represents s) : Pipelined r' s where
  queue := h.localStore ▸ hqueue
  pipeline := by rw [h.pipeline, if_pos h.enabled]
  phase := h.phase
  off := fun hoff => by
    rw [h.enabled] at hoff
    cases hoff
  on := fun _ => h.started

end Fill

/-! ### What the events do -/

/-- The queue after an event. -/
def queueAfter (r : RemoteStore) (s : PendingBatches) : ClientEvent → PendingBatches
  | .write mutations => if h : mutations = [] then s else s.push mutations h
  | .response _ _ => if r.writeStream.handshakeComplete then s.pop else s
  | .finish status =>
      if r.writeStream.handshakeComplete ∧ r.writePipeline ≠ [] ∧
          isPermanentWriteError status = .ok true then s.pop
      else s
  | .relaunch => if s.batches = [] then PendingBatches.empty else s
  | _ => s

/-- A cached document after an event. -/
def documentAfter (r : RemoteStore) (key : DocumentKey) : ClientEvent → Option MaybeDocument
  | .response commitVersion versions =>
      match r.writePipeline with
      | batch :: _ =>
          if r.writeStream.handshakeComplete ∧ batch.affects key then
            acknowledged ⟨batch, commitVersion, versions⟩ key
              (r.localStore.remoteDocumentCache.get key)
          else r.localStore.remoteDocumentCache.get key
      | [] => r.localStore.remoteDocumentCache.get key
  | .remoteEvent event =>
      if event.snapshotVersion ≠ 0 ∧
          event.snapshotVersion ≥ r.localStore.lastRemoteSnapshotVersion then
        (event.documentUpdates.filter fun e => e.key = key).foldl
          (fun doc e => updated doc e.document) (r.localStore.remoteDocumentCache.get key)
      else r.localStore.remoteDocumentCache.get key
  | _ => r.localStore.remoteDocumentCache.get key

/-- Whether the network is enabled after an event. -/
def enabledAfter (r : RemoteStore) : ClientEvent → Bool
  | .enableNetwork | .relaunch => true
  | .disableNetwork => false
  | _ => r.isNetworkEnabled

/-- What an event does to the queue with the pipeline, to the network and to the
cache. -/
structure Stepped (r : RemoteStore) (s : PendingBatches) (e : ClientEvent)
    (r' : RemoteStore) : Prop where
  pipelined : Pipelined r' (queueAfter r s e)
  enabled : r'.isNetworkEnabled = enabledAfter r e
  documents : ∀ key, r'.localStore.remoteDocumentCache.get key = documentAfter r key e

section Events

variable {r : RemoteStore} {s : PendingBatches}

theorem Pipelined.isPrefix (h : Pipelined r s) : r.writePipeline <+: s.batches := by
  rw [h.pipeline]
  split
  · exact List.take_prefix _ _
  · exact List.nil_prefix

theorem Pipelined.length_le (h : Pipelined r s) :
    r.writePipeline.length ≤ kMaxPendingWrites := by
  rw [h.pipeline]
  split
  · exact List.length_take_le _ _
  · exact Nat.zero_le _

/-- The queue has grown or not; the pipeline is filled from it. -/
theorem Pipelined.refill (h : Pipelined r s) {localStore : LocalStore} {s' : PendingBatches}
    (hqueue : localStore.mutationQueue.Represents s') (hpre : s.batches <+: s'.batches) :
    Succeeds (fun r' => Pipelined r' s' ∧ r'.localStore = localStore ∧
        r'.isNetworkEnabled = r.isNetworkEnabled)
      ({ r with localStore := localStore } : RemoteStore).fillWritePipeline := by
  by_cases henabled : r.isNetworkEnabled = true
  · have hready := fillWritePipeline_ready (r := { r with localStore := localStore }) hqueue
      henabled (h.isPrefix.trans hpre) h.length_le h.phase
    refine hready.mono ?_
    intro r' hready
    exact ⟨hready.pipelined hqueue, hready.localStore, hready.enabled.trans henabled.symm⟩
  · have hoff : r.isNetworkEnabled = false := by simpa using henabled
    rw [fillWritePipeline_of_disabled (r := { r with localStore := localStore }) hoff]
    refine ⟨{ queue := hqueue, pipeline := ?_, phase := h.phase, off := h.off, on := h.on },
      rfl, rfl⟩
    have hpipeline := h.pipeline
    rw [if_neg henabled] at hpipeline
    rw [if_neg (show ¬({ r with localStore := localStore } : RemoteStore).isNetworkEnabled =
      true from henabled)]
    exact hpipeline

theorem push_isPrefix {mutations : List Mutation} (hne : mutations ≠ []) :
    s.batches <+: (s.push mutations hne).batches :=
  List.prefix_append _ _

theorem foldlM_writeMutations (unanswered : List Request) (batches : List MutationBatch) :
    batches.foldlM (fun (stream : WriteStream) write => stream.writeMutations write.mutations)
        ⟨.opened, false, some unanswered, true⟩ =
      (.ok ⟨.opened, false,
        some (unanswered ++ batches.map fun batch => .writeMutations batch.mutations), true⟩ :
          Except Crash WriteStream) := by
  induction batches generalizing unanswered with
  | nil => rw [List.map_nil, List.append_nil]; rfl
  | cons batch batches ih =>
      rw [List.foldlM_cons, List.map_cons]
      show batches.foldlM (fun (stream : WriteStream) write =>
          stream.writeMutations write.mutations)
        ⟨.opened, false, some (unanswered ++ [.writeMutations batch.mutations]), true⟩ = _
      rw [ih, List.append_assoc]
      rfl

/-- What is on the stream is enabled to be there. -/
theorem Pipelined.enabled_of_isStarted (h : Pipelined r s)
    (hstarted : r.writeStream.isStarted = true) : r.isNetworkEnabled = true := by
  cases henabled : r.isNetworkEnabled with
  | true => rfl
  | false =>
      rw [h.off henabled] at hstarted
      cases hstarted

theorem head?_of_isPrefix {batch : MutationBatch} {rest batches : List MutationBatch}
    (h : batch :: rest <+: batches) : batches.head? = some batch := by
  obtain ⟨post, rfl⟩ := h
  rfl

theorem isPrefix_pop {batch : MutationBatch} {rest : List MutationBatch}
    (h : batch :: rest <+: s.batches) : rest <+: s.pop.batches := by
  obtain ⟨post, hpost⟩ := h
  refine ⟨post, ?_⟩
  show rest ++ post = s.batches.tail
  rw [← hpost]
  rfl

/-! ### Closing the stream -/

theorem exists_isPermanentError {status : ErrorCode} (hne : status ≠ .kErrorOk) :
    ∃ permanent, isPermanentError status = .ok permanent := by
  cases status with
  | kErrorOk => exact absurd rfl hne
  | _ => exact ⟨_, rfl⟩

theorem exists_isPermanentWriteError {status : ErrorCode} (hne : status ≠ .kErrorOk) :
    ∃ permanent, isPermanentWriteError status = .ok permanent := by
  obtain ⟨permanent, hpermanent⟩ := exists_isPermanentError hne
  exact ⟨_, by rw [isPermanentWriteError, hpermanent]; rfl⟩

/-- The handshake is forgotten when the store has been notified. -/
theorem phase_reset {held : Bool} {pipeline : List MutationBatch} {stream : WriteStream}
    (h : Phase held pipeline stream) (hclosed : stream.isOpen = false) :
    Phase false pipeline { stream with handshakeComplete := false } := by
  cases h with
  | initial => exact .initial
  | error => exact .error
  | backoff hne => exact .backoff hne
  | authenticating hne => exact .authenticating hne
  | connecting hne => exact .connecting hne
  | shakingHands => cases hclosed
  | writing => cases hclosed

theorem Ready.reset {held : Bool} {r' : RemoteStore} (h : Ready held r s r')
    (hqueue : r.localStore.mutationQueue.Represents s)
    (hclosed : r.writeStream.isOpen = false) :
    Pipelined { r' with writeStream := { r'.writeStream with handshakeComplete := false } }
      s where
  queue := h.localStore ▸ hqueue
  pipeline := h.pipeline.trans (if_pos h.enabled).symm
  phase := phase_reset h.phase (h.isOpen.trans hclosed)
  off := fun hoff => by
    have henabled : r'.isNetworkEnabled = true := h.enabled
    rw [show r'.isNetworkEnabled = false from hoff] at henabled
    cases henabled
  on := fun _ => h.started

/-- A stopped stream. -/
def Stopped (stream : WriteStream) : Prop :=
  stream = ⟨.initial, false, none, false⟩ ∨ stream = ⟨.error, false, none, false⟩

/-- Nobody needs the stream that is closed gracefully. -/
theorem close_graceful (hphase : Phase false r.writePipeline r.writeStream)
    (hquiet : r.isNetworkEnabled = false ∨ r.writePipeline = []) :
    ∃ stream, r.close .kErrorOk = .ok { r with writeStream := stream } ∧ Stopped stream := by
  obtain ⟨localStore, enabled, stream, pipeline⟩ := r
  change Phase false pipeline stream at hphase
  have hshould : ∀ stream : WriteStream, (RemoteStore.mk localStore enabled stream
      pipeline).shouldStartWriteStream = false := by
    intro stream
    rcases hquiet with hoff | hempty
    · have hoff' : enabled = false := hoff
      simp [RemoteStore.shouldStartWriteStream, hoff']
    · have hempty' : pipeline = [] := hempty
      simp [RemoteStore.shouldStartWriteStream, hempty']
  have hclose : stream.isStarted = true → (RemoteStore.mk localStore enabled stream
      pipeline).close .kErrorOk = .ok ⟨localStore, enabled,
        ⟨.initial, false, none, false⟩, pipeline⟩ := by
    intro hstarted
    rw [RemoteStore.close, if_neg (fun h => h.2 hstarted), if_neg (not_not.mpr hstarted)]
    simp only [RemoteStore.onWriteStreamClose, if_true, hshould, Bool.false_eq_true,
      if_false]
    rfl
  cases hphase with
  | initial => exact ⟨_, rfl, .inl rfl⟩
  | error => exact ⟨_, rfl, .inr rfl⟩
  | backoff => exact ⟨_, hclose rfl, .inl rfl⟩
  | authenticating => exact ⟨_, hclose rfl, .inl rfl⟩
  | connecting => exact ⟨_, hclose rfl, .inl rfl⟩
  | shakingHands => exact ⟨_, hclose rfl, .inl rfl⟩
  | writing => exact ⟨_, hclose rfl, .inl rfl⟩

/-- The store as it is when a failed stream notifies it. -/
def RemoteStore.failed (r : RemoteStore) : RemoteStore :=
  { r with writeStream := ⟨.error, false, none, r.writeStream.handshakeComplete⟩ }

theorem failed_filled (h : Pipelined r s) (henabled : r.isNetworkEnabled = true) :
    Filled r.writeStream.handshakeComplete r.failed s r.failed where
  localStore := rfl
  enabled := henabled
  pipeline := h.pipeline.trans (if_pos henabled)
  phase := .error
  isOpen := rfl

/-- The front of the pipeline is refused; the others move up. -/
theorem handleWriteError_ready (h : Pipelined r s) (henabled : r.isNetworkEnabled = true)
    {status : ErrorCode} (hpermanent : isPermanentWriteError status = .ok true)
    (hpipeline : r.writePipeline ≠ []) :
    Succeeds (fun r' => ∃ r₁, Ready r.writeStream.handshakeComplete r₁ s.pop r' ∧
        r₁.localStore.mutationQueue.Represents s.pop ∧ r₁.writeStream.isOpen = false ∧
        r₁.localStore.remoteDocumentCache = r.localStore.remoteDocumentCache)
      (r.failed.handleWriteError status) := by
  obtain ⟨localStore, enabled, stream, pipeline⟩ := r
  cases pipeline with
  | nil => exact absurd rfl hpipeline
  | cons batch rest =>
      have hpre : batch :: rest <+: s.batches := h.isPrefix
      obtain ⟨changes, queue, hok, hqueue⟩ :=
        rejectBatch_ok h.queue (head?_of_isPrefix hpre)
      have hrest : rest.length ≤ kMaxPendingWrites :=
        (Nat.le_succ rest.length).trans h.length_le
      have hfill := fillWritePipeline_ready
        (r := ⟨{ localStore with mutationQueue := queue }, enabled,
          ⟨.initial, false, none, stream.handshakeComplete⟩, rest⟩)
        hqueue henabled (isPrefix_pop hpre) hrest
        (show Phase stream.handshakeComplete rest _ from .initial)
      rw [RemoteStore.handleWriteError, hpermanent]
      show Ends _ _ (((localStore.rejectBatch batch.batchId).bind _).bind _)
      rw [hok]
      exact hfill.mono fun r' hready => ⟨_, hready, hqueue, rfl, rfl⟩

/-- A stream that fails is tried again, without the front of the pipeline if the
error was about that. -/
theorem close_failed (h : Pipelined r s) (hstarted : r.writeStream.isStarted = true)
    {status : ErrorCode} (hne : status ≠ .kErrorOk) :
    Succeeds (fun r' => Pipelined r' (queueAfter r s (.finish status)) ∧
        r'.isNetworkEnabled = r.isNetworkEnabled ∧
        r'.localStore.remoteDocumentCache = r.localStore.remoteDocumentCache)
      (r.close status) := by
  have henabled : r.isNetworkEnabled = true := h.enabled_of_isStarted hstarted
  have hretry : Succeeds (fun r' => ∃ r₁, Ready r.writeStream.handshakeComplete r₁ s r' ∧
      r₁.localStore.mutationQueue.Represents s ∧ r₁.writeStream.isOpen = false ∧
      r₁.localStore.remoteDocumentCache = r.localStore.remoteDocumentCache)
      r.failed.startIfNeeded :=
    (startIfNeeded_ready (failed_filled h henabled)).mono fun r' hready =>
      ⟨_, hready, h.queue, rfl, rfl⟩
  have hnotified : Succeeds (fun r' => ∃ r₁,
      Ready r.writeStream.handshakeComplete r₁ (queueAfter r s (.finish status)) r' ∧
      r₁.localStore.mutationQueue.Represents (queueAfter r s (.finish status)) ∧
      r₁.writeStream.isOpen = false ∧
      r₁.localStore.remoteDocumentCache = r.localStore.remoteDocumentCache)
      (r.failed.onWriteStreamClose status) := by
    rw [RemoteStore.onWriteStreamClose, if_neg hne]
    by_cases hempty : r.writePipeline = []
    · have hafter : queueAfter r s (.finish status) = s :=
        if_neg fun hp => hp.2.1 hempty
      rw [if_pos (show r.failed.writePipeline = [] from hempty), hafter]
      exact hretry
    · rw [if_neg (show r.failed.writePipeline ≠ [] from hempty)]
      by_cases hcomplete : r.writeStream.handshakeComplete
      · rw [if_pos (show r.failed.writeStream.handshakeComplete from hcomplete)]
        obtain ⟨permanent, hpermanent⟩ := exists_isPermanentWriteError hne
        cases permanent with
        | false =>
            have hafter : queueAfter r s (.finish status) = s :=
              if_neg fun hp => by
                rw [hpermanent] at hp
                cases hp.2.2
            rw [hafter, RemoteStore.handleWriteError, hpermanent]
            exact hretry
        | true =>
            have hafter : queueAfter r s (.finish status) = s.pop :=
              if_pos ⟨hcomplete, hempty, hpermanent⟩
            rw [hafter]
            refine (handleWriteError_ready h henabled hpermanent hempty).bind ?_
            rintro r' ⟨r₁, hready, hfacts⟩
            exact (startIfNeeded_ready hready.toFilled).mono fun r'' hready' =>
              ⟨r₁, hready', hfacts⟩
      · obtain ⟨permanent, hpermanent⟩ := exists_isPermanentError hne
        have hafter : queueAfter r s (.finish status) = s := if_neg fun hp => hcomplete hp.1
        rw [if_neg (show ¬r.failed.writeStream.handshakeComplete from hcomplete), hafter,
          RemoteStore.handleHandshakeError, hpermanent]
        exact hretry
  rw [RemoteStore.close, if_neg (fun hok => hne hok.1), if_neg (not_not.mpr hstarted)]
  simp only [if_neg hne]
  refine hnotified.bind ?_
  rintro r' ⟨r₁, hready, hqueue, hclosed, hcache⟩
  refine ⟨hready.reset hqueue hclosed, hready.enabled.trans henabled.symm, ?_⟩
  show r'.localStore.remoteDocumentCache = _
  rw [hready.localStore, hcache]

/-! ### Streams -/

section Phases

variable {pipeline : List MutationBatch} {stream : WriteStream}

theorem Phase.handshake_of_starting (h : Phase false pipeline stream)
    (hstate : stream.state = .starting) : stream.handshakeComplete = false := by
  cases h with
  | authenticating => rfl
  | connecting => rfl
  | _ => cases hstate

theorem Phase.isStarted_of_grpcStream (h : Phase false pipeline stream)
    (hstream : stream.grpcStream.isSome) : stream.isStarted = true := by
  cases h with
  | connecting => rfl
  | shakingHands => rfl
  | writing => rfl
  | _ => cases hstream

/-- Only an open stream has shaken hands. -/
theorem Phase.of_handshakeComplete (h : Phase false pipeline stream)
    (hcomplete : stream.handshakeComplete = true) :
    stream.grpcStream =
      some (pipeline.map fun batch => .writeMutations batch.mutations) := by
  cases h with
  | writing => rfl
  | _ => cases hcomplete

theorem Phase.empty_of_idle (h : Phase false pipeline stream)
    (hidle : stream.idlenessTimer = true) : pipeline = [] := by
  cases h with
  | writing idle hempty => exact hempty hidle
  | _ => cases hidle

end Phases

theorem Stopped.phase {stream : WriteStream} (h : Stopped stream)
    (pipeline : List MutationBatch) : Phase false pipeline stream := by
  rcases h with rfl | rfl
  · exact .initial
  · exact .error

theorem Stopped.not_isStarted {stream : WriteStream} (h : Stopped stream) :
    stream.isStarted = false := by
  rcases h with rfl | rfl <;> rfl

/-- Without a network there is neither stream nor pipeline. -/
theorem pipelined_stopped {localStore : LocalStore} {stream : WriteStream}
    (hqueue : localStore.mutationQueue.Represents s) (hstopped : Stopped stream) :
    Pipelined ⟨localStore, false, stream, []⟩ s where
  queue := hqueue
  pipeline := rfl
  phase := hstopped.phase []
  off := fun _ => hstopped.not_isStarted
  on := fun _ hne => absurd rfl hne

end Events

end ValentinesDay.Ports.WritePipeline
