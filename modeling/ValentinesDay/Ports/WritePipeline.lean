import ValentinesDay.Ports.PipelinePhases

/-!
# The write pipeline of the Firestore client

What each event does to the remote store, and what holds in every run.

## Main results

* `step_stepped` — what an event does to queue, pipeline, stream and cache.
* `pipelined_run` — the pipeline is the front of the queue in every run in which
  the backend answers requests in order and does not end a stream gracefully
  under a write; no assertion of the client fails.
-/

namespace ValentinesDay.Ports.WritePipeline

open ValentinesDay.Verified.Fallible
open ValentinesDay.Verified.OrderedTable
open ValentinesDay.Verified.Run
open ValentinesDay.Ports.Runtime
open ValentinesDay.Ports.Firestore
open ValentinesDay.Ports.Mutations
open ValentinesDay.Ports.MutationQueue
open ValentinesDay.Ports.LocalDocuments

/-! ## The events -/

section Events

variable {r : RemoteStore} {s : PendingBatches}

theorem write_stepped (h : Pipelined r s) (mutations : List Mutation) :
    Succeeds (Stepped r s (.write mutations)) (r.step (.write mutations)) := by
  rw [RemoteStore.step, RemoteStore.writeMutations]
  by_cases hempty : mutations = []
  · rw [if_pos hempty]
    exact
      { pipelined := by
          rw [queueAfter, dif_pos hempty]
          exact h
        enabled := rfl
        documents := fun _ => rfl }
  · obtain ⟨changed, queue, hok, hqueue⟩ := writeLocally_ok h.queue hempty
    rw [if_neg hempty, hok]
    refine (h.refill hqueue (push_isPrefix hempty)).mono ?_
    rintro r' ⟨hpipelined, hlocal, hnetwork⟩
    exact
      { pipelined := by
          rw [queueAfter, dif_neg hempty]
          exact hpipelined
        enabled := hnetwork
        documents := fun _ => by
          rw [hlocal]
          rfl }

/-- The first answer is that to the handshake; each later one acknowledges the
front of the pipeline. -/
theorem response_stepped (h : Pipelined r s) {commitVersion : Nat} {versions : List Nat}
    (hconforms : r.Conforms (.response commitVersion versions)) :
    Succeeds (Stepped r s (.response commitVersion versions))
      (r.step (.response commitVersion versions)) := by
  obtain ⟨localStore, enabled, stream, pipeline⟩ := r
  have hphase : Phase false pipeline stream := h.phase
  cases hphase with
  | initial => exact False.elim hconforms
  | error => exact False.elim hconforms
  | backoff => exact False.elim hconforms
  | authenticating => exact False.elim hconforms
  | connecting => exact False.elim hconforms
  | shakingHands hne =>
      show Ends _ _ (Except.bind (pipeline.foldlM (fun (stream : WriteStream) write =>
        stream.writeMutations write.mutations) ⟨.opened, false, some [], true⟩) _)
      rw [foldlM_writeMutations]
      exact
        { pipelined :=
            { queue := h.queue
              pipeline := h.pipeline
              phase := .writing false (fun hidle => absurd hidle (by decide))
              off := fun hoff => by
                have hstopped := h.off hoff
                cases hstopped
              on := fun _ _ => rfl }
          enabled := rfl
          documents := fun key => by
            rw [documentAfter]
            cases pipeline <;> rfl }
  | writing idle hidle =>
      have henabled : enabled = true := h.enabled_of_isStarted rfl
      cases pipeline with
      | nil => exact False.elim hconforms
      | cons batch rest =>
          have hlength : versions.length = batch.mutations.length := hconforms
          have hpre : batch :: rest <+: s.batches := h.isPrefix
          have hfront : s.batches.head? =
              some (⟨batch, commitVersion, versions⟩ : LocalStore.MutationBatchResult).batch :=
            head?_of_isPrefix hpre
          obtain ⟨changes, queue, cache, hok, hqueue, hget⟩ :=
            acknowledgeBatch_ok h.queue hfront hlength
          have hrest : rest.length ≤ kMaxPendingWrites :=
            (Nat.le_succ rest.length).trans h.length_le
          have hfill := fillWritePipeline_ready
            (r := ⟨{ localStore with mutationQueue := queue, remoteDocumentCache := cache },
              enabled, ⟨.opened, idle, some (rest.map fun batch =>
                .writeMutations batch.mutations), true⟩, rest⟩)
            hqueue henabled (isPrefix_pop hpre) hrest
            (show Phase false rest _ from
              .writing idle fun hi => absurd (hidle hi) (List.cons_ne_nil _ _))
          show Ends _ _ ((RemoteStore.mutationBatchResult batch commitVersion versions).bind _)
          rw [RemoteStore.mutationBatchResult, if_pos hlength.symm]
          show Ends _ _ (((localStore.acknowledgeBatch _).bind _).bind _)
          rw [hok]
          refine hfill.mono ?_
          intro r' hready
          exact
            { pipelined := hready.pipelined hqueue
              enabled := hready.enabled.trans henabled.symm
              documents := fun key => by
                rw [hready.localStore]
                show cache.get key = _
                rw [hget, documentAfter]
                simp }

theorem credentials_stepped (h : Pipelined r s) (status : ErrorCode) :
    Succeeds (Stepped r s (.credentials status)) (r.step (.credentials status)) := by
  rw [RemoteStore.step]
  by_cases hwaits : r.writeStream.state = .starting ∧ r.writeStream.grpcStream = none
  · have hcomplete := h.phase.handshake_of_starting hwaits.1
    rw [if_pos hwaits, RemoteStore.resumeStartWithCredentials]
    by_cases hok : status = .kErrorOk
    · rw [if_neg (not_not.mpr hok)]
      obtain ⟨localStore, enabled, stream, pipeline⟩ := r
      have hphase : Phase false pipeline stream := h.phase
      cases hphase with
      | authenticating hne =>
          exact
            { pipelined :=
                { queue := h.queue
                  pipeline := h.pipeline
                  phase := .connecting hne
                  off := h.off
                  on := h.on }
              enabled := rfl
              documents := fun _ => rfl }
      | initial => cases hwaits.1
      | error => cases hwaits.1
      | backoff => cases hwaits.1
      | connecting => cases hwaits.2
      | shakingHands => cases hwaits.1
      | writing => cases hwaits.1
    · have hstarted : r.writeStream.isStarted = true := by
        simp [WriteStream.isStarted, hwaits.1]
      rw [if_pos hok]
      refine (close_failed h hstarted hok).mono ?_
      rintro r' ⟨hpipelined, hnetwork, hcache⟩
      have hafter : queueAfter r s (.finish status) = s :=
        if_neg fun hp => by
          rw [hcomplete] at hp
          cases hp.1
      rw [hafter] at hpipelined
      exact
        { pipelined := hpipelined
          enabled := hnetwork
          documents := fun _ => by
            rw [hcache]
            rfl }
  · rw [if_neg hwaits]
    exact { pipelined := h, enabled := rfl, documents := fun _ => rfl }

theorem streamStart_stepped (h : Pipelined r s) :
    Succeeds (Stepped r s .streamStart) (r.step .streamStart) := by
  rw [RemoteStore.step]
  by_cases hwaits : r.writeStream.state = .starting ∧ r.writeStream.grpcStream.isSome
  · rw [if_pos hwaits]
    obtain ⟨localStore, enabled, stream, pipeline⟩ := r
    have hphase : Phase false pipeline stream := h.phase
    cases hphase with
    | connecting hne =>
        exact
          { pipelined :=
              { queue := h.queue
                pipeline := h.pipeline
                phase := .shakingHands hne
                off := fun hoff => by
                  have hstopped := h.off hoff
                  cases hstopped
                on := fun _ _ => rfl }
            enabled := rfl
            documents := fun _ => rfl }
    | initial => cases hwaits.1
    | error => cases hwaits.1
    | backoff => cases hwaits.1
    | authenticating => cases hwaits.2
    | shakingHands => cases hwaits.1
    | writing => cases hwaits.1
  · rw [if_neg hwaits]
    exact { pipelined := h, enabled := rfl, documents := fun _ => rfl }

theorem backoffElapsed_stepped (h : Pipelined r s) :
    Succeeds (Stepped r s .backoffElapsed) (r.step .backoffElapsed) := by
  rw [RemoteStore.step]
  by_cases hbackoff : r.writeStream.state = .backoff
  · rw [if_pos hbackoff]
    obtain ⟨localStore, enabled, stream, pipeline⟩ := r
    have hphase : Phase false pipeline stream := h.phase
    cases hphase with
    | backoff hne =>
        exact
          { pipelined :=
              { queue := h.queue
                pipeline := h.pipeline
                phase := .authenticating hne
                off := h.off
                on := h.on }
            enabled := rfl
            documents := fun _ => rfl }
    | initial => cases hbackoff
    | error => cases hbackoff
    | authenticating => cases hbackoff
    | connecting => cases hbackoff
    | shakingHands => cases hbackoff
    | writing => cases hbackoff
  · rw [if_neg hbackoff]
    exact { pipelined := h, enabled := rfl, documents := fun _ => rfl }

/-- A graceful close with an empty pipeline. -/
theorem close_idle (h : Pipelined r s) (hempty : r.writePipeline = []) :
    Succeeds (fun r' => Pipelined r' s ∧ r'.localStore = r.localStore ∧
      r'.isNetworkEnabled = r.isNetworkEnabled) (r.close .kErrorOk) := by
  obtain ⟨stream, hok, hstopped⟩ := close_graceful h.phase (.inr hempty)
  rw [hok]
  exact ⟨
    { queue := h.queue
      pipeline := h.pipeline
      phase := hstopped.phase _
      off := fun _ => hstopped.not_isStarted
      on := fun _ hne => absurd hempty hne }, rfl, rfl⟩

theorem finish_stepped (h : Pipelined r s) {status : ErrorCode}
    (hconforms : r.Conforms (.finish status)) :
    Succeeds (Stepped r s (.finish status)) (r.step (.finish status)) := by
  rw [RemoteStore.step]
  by_cases hstream : r.writeStream.grpcStream.isSome
  · have hstarted := h.phase.isStarted_of_grpcStream hstream
    rw [if_pos hstream]
    by_cases hok : status = .kErrorOk
    · have hempty : r.writePipeline = [] := hconforms hok
      subst hok
      refine (close_idle h hempty).mono ?_
      rintro r' ⟨hpipelined, hlocal, hnetwork⟩
      have hafter : queueAfter r s (.finish .kErrorOk) = s :=
        if_neg fun hp => hp.2.1 hempty
      exact
        { pipelined := by
            rw [hafter]
            exact hpipelined
          enabled := hnetwork
          documents := fun _ => by
            rw [hlocal]
            rfl }
    · refine (close_failed h hstarted hok).mono ?_
      rintro r' ⟨hpipelined, hnetwork, hcache⟩
      exact
        { pipelined := hpipelined
          enabled := hnetwork
          documents := fun _ => by
            rw [hcache]
            rfl }
  · have hcomplete : ¬r.writeStream.handshakeComplete = true := by
      intro hcomplete
      rw [h.phase.of_handshakeComplete hcomplete] at hstream
      exact hstream rfl
    have hafter : queueAfter r s (.finish status) = s := if_neg fun hp => hcomplete hp.1
    rw [if_neg hstream]
    exact
      { pipelined := by
          rw [hafter]
          exact h
        enabled := rfl
        documents := fun _ => rfl }

theorem idleTimeout_stepped (h : Pipelined r s) :
    Succeeds (Stepped r s .idleTimeout) (r.step .idleTimeout) := by
  rw [RemoteStore.step]
  by_cases hidle : r.writeStream.idlenessTimer
  · -- the timer runs only on an empty pipeline
    have hempty : r.writePipeline = [] := h.phase.empty_of_idle hidle
    rw [if_pos hidle]
    refine (close_idle h hempty).mono ?_
    rintro r' ⟨hpipelined, hlocal, hnetwork⟩
    exact
      { pipelined := hpipelined
        enabled := hnetwork
        documents := fun _ => by
          rw [hlocal]
          rfl }
  · rw [if_neg hidle]
    exact { pipelined := h, enabled := rfl, documents := fun _ => rfl }

/-- Filling the pipeline once the network is there. -/
theorem enableNetwork_ok (hqueue : r.localStore.mutationQueue.Represents s)
    (hpre : r.writePipeline <+: s.batches)
    (hlength : r.writePipeline.length ≤ kMaxPendingWrites)
    (hphase : Phase false r.writePipeline r.writeStream) :
    Succeeds (fun r' => Pipelined r' s ∧ r'.localStore = r.localStore ∧
      r'.isNetworkEnabled = true) r.enableNetwork := by
  have hready := fillWritePipeline_ready (r := { r with isNetworkEnabled := true }) hqueue rfl
    hpre hlength hphase
  refine hready.mono ?_
  intro r' hready
  exact ⟨hready.pipelined hqueue, hready.localStore, hready.enabled⟩

theorem enableNetwork_stepped (h : Pipelined r s) :
    Succeeds (Stepped r s .enableNetwork) (r.step .enableNetwork) := by
  refine (enableNetwork_ok h.queue h.isPrefix h.length_le h.phase).mono ?_
  rintro r' ⟨hpipelined, hlocal, hnetwork⟩
  exact
    { pipelined := hpipelined
      enabled := hnetwork
      documents := fun _ => by
        rw [hlocal]
        rfl }

theorem disableNetworkInternal_ok (h : Pipelined r s) : ∃ stream,
    ({ r with isNetworkEnabled := false } : RemoteStore).disableNetworkInternal =
      .ok ⟨r.localStore, false, stream, []⟩ ∧ Stopped stream := by
  obtain ⟨stream, hok, hstopped⟩ := close_graceful
    (r := { r with isNetworkEnabled := false }) h.phase (.inl rfl)
  refine ⟨stream, ?_, hstopped⟩
  rw [RemoteStore.disableNetworkInternal, hok]
  rfl

theorem disableNetwork_stepped (h : Pipelined r s) :
    Succeeds (Stepped r s .disableNetwork) (r.step .disableNetwork) := by
  obtain ⟨stream, hok, hstopped⟩ := disableNetworkInternal_ok h
  rw [RemoteStore.step, RemoteStore.disableNetwork, hok]
  exact
    { pipelined := pipelined_stopped h.queue hstopped
      enabled := rfl
      documents := fun _ => rfl }

theorem connectivityChanged_stepped (h : Pipelined r s) :
    Succeeds (Stepped r s .connectivityChanged) (r.step .connectivityChanged) := by
  rw [RemoteStore.step]
  by_cases henabled : r.isNetworkEnabled
  · obtain ⟨stream, hok, hstopped⟩ := disableNetworkInternal_ok h
    have hinhibit : ∃ stream', stream.inhibitBackoff = .ok stream' ∧ Stopped stream' := by
      rcases hstopped with rfl | rfl
      · exact ⟨_, rfl, .inl rfl⟩
      · exact ⟨_, rfl, .inl rfl⟩
    obtain ⟨stream', hstream', hstopped'⟩ := hinhibit
    rw [if_pos henabled, RemoteStore.restartNetwork, hok]
    show Ends _ _ (stream.inhibitBackoff.bind _)
    rw [hstream']
    have hrestarted := enableNetwork_ok (r := ⟨r.localStore, false, stream', []⟩) h.queue
      List.nil_prefix (Nat.zero_le _) (hstopped'.phase [])
    refine hrestarted.mono ?_
    rintro r' ⟨hpipelined, hlocal, hnetwork⟩
    exact
      { pipelined := hpipelined
        enabled := hnetwork.trans henabled.symm
        documents := fun _ => by
          rw [hlocal]
          rfl }
  · rw [if_neg henabled]
    exact
      { pipelined := h
        enabled := rfl
        documents := fun _ => rfl }

theorem remoteEvent_stepped (h : Pipelined r s) (event : LocalStore.RemoteEvent) :
    Succeeds (Stepped r s (.remoteEvent event)) (r.step (.remoteEvent event)) := by
  rw [RemoteStore.step, RemoteStore.onWatchStreamChange]
  by_cases hfresh : event.snapshotVersion ≠ 0 ∧
      event.snapshotVersion ≥ r.localStore.lastRemoteSnapshotVersion
  · obtain ⟨changes, cache, hok, hget⟩ := applyRemoteEvent_ok h.queue hfresh.1 hfresh.2
    rw [if_pos hfresh, hok]
    exact
      { pipelined :=
          { queue := h.queue
            pipeline := h.pipeline
            phase := h.phase
            off := h.off
            on := h.on }
        enabled := rfl
        documents := fun key => (hget key).trans (if_pos hfresh).symm }
  · rw [if_neg hfresh]
    exact
      { pipelined := h
        enabled := rfl
        documents := fun _ => (if_neg hfresh).symm }

theorem launched_ok {store : LocalStore} (h : store.mutationQueue.Represents s) :
    Succeeds (fun r => Pipelined r (if s.batches = [] then PendingBatches.empty else s) ∧
      r.isNetworkEnabled = true ∧
      r.localStore.remoteDocumentCache = store.remoteDocumentCache) (launched store) := by
  have hstarted := enableNetwork_ok
    (r := ⟨{ store with mutationQueue := store.mutationQueue.start }, false, closedStream, []⟩)
    h.start List.nil_prefix (Nat.zero_le _) (show Phase false [] closedStream from .initial)
  refine hstarted.mono ?_
  rintro r ⟨hpipelined, hlocal, hnetwork⟩
  exact ⟨hpipelined, hnetwork, by rw [hlocal]⟩

theorem relaunch_stepped (h : Pipelined r s) :
    Succeeds (Stepped r s .relaunch) (r.step .relaunch) := by
  refine (launched_ok h.queue).mono ?_
  rintro r' ⟨hpipelined, hnetwork, hcache⟩
  exact
    { pipelined := hpipelined
      enabled := hnetwork
      documents := fun _ => by
        rw [hcache]
        rfl }

/-- **Steps.**  No conforming event fails an assertion. -/
theorem step_stepped (h : Pipelined r s) {e : ClientEvent} (hconforms : r.Conforms e) :
    Succeeds (Stepped r s e) (r.step e) := by
  cases e with
  | write mutations => exact write_stepped h mutations
  | credentials status => exact credentials_stepped h status
  | streamStart => exact streamStart_stepped h
  | response commitVersion versions => exact response_stepped h hconforms
  | finish status => exact finish_stepped h hconforms
  | backoffElapsed => exact backoffElapsed_stepped h
  | idleTimeout => exact idleTimeout_stepped h
  | enableNetwork => exact enableNetwork_stepped h
  | disableNetwork => exact disableNetwork_stepped h
  | connectivityChanged => exact connectivityChanged_stepped h
  | remoteEvent event => exact remoteEvent_stepped h event
  | relaunch => exact relaunch_stepped h

end Events

/-! ## Runs -/

/-- The client lives, and its pipeline is the front of its queue. -/
def Alive (p : Except Crash RemoteStore) : Prop := ∃ r s, p = .ok r ∧ Pipelined r s

/-- The backend conforms, as long as the client lives. -/
def ConformsIn : Except Crash RemoteStore → ClientEvent → Prop
  | .ok r, e => r.Conforms e
  | .error _, _ => True

instance (r : RemoteStore) (e : ClientEvent) : Decidable (r.Conforms e) := by
  unfold RemoteStore.Conforms
  split
  · split <;> infer_instance
  · infer_instance
  · infer_instance

instance : ∀ p e, Decidable (ConformsIn p e)
  | .ok r, e => inferInstanceAs (Decidable (r.Conforms e))
  | .error _, _ => inferInstanceAs (Decidable True)

/-- **The pipeline.**  Whatever the app, the network, the timers and the backend
do: as long as the backend keeps to the protocol, no assertion of the client
fails, the pipeline is the front of the queue, and the requests on an open
stream are the pipeline, in its order. -/
theorem pipelined_run {store : LocalStore} {s : PendingBatches}
    (h : store.mutationQueue.Represents s) {es : List ClientEvent}
    (hconforms : Along (halting RemoteStore.step) ConformsIn (launched store) es) :
    Throughout (halting RemoteStore.step) Alive (launched store) es := by
  refine throughout_of_guard ?_ ?_ hconforms
  · rintro p e ⟨r, s, rfl, hr⟩ he
    obtain ⟨r', hr', hstepped⟩ := (step_stepped hr he).exists_ok
    exact ⟨r', _, hr', hstepped.pipelined⟩
  · obtain ⟨r, hr, hpipelined, -⟩ := (launched_ok h).exists_ok
    exact ⟨r, _, hr, hpipelined⟩

/-- A clue is found on a fresh installation: the write waits for the stream, is
sent after the handshake and acknowledged; then the stream idles. -/
def sendOneWrite : List ClientEvent :=
  [ .write [toMutation (.updateData (clueKey "Clue1") "Locked" (.bool false))],
    .credentials .kErrorOk, .streamStart, .response 0 [], .response 5 [5], .idleTimeout,
    .relaunch ]

theorem pipelined_run_sendOneWrite :
    Throughout (halting RemoteStore.step) Alive (launched .fresh) sendOneWrite :=
  pipelined_run
    (show LocalStore.fresh.mutationQueue.Represents PendingBatches.empty from
      LevelDbMutationQueue.opened_represents)
    (by decide +kernel)

end ValentinesDay.Ports.WritePipeline
