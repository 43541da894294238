import ValentinesDay.Ports.CachedCopies

/-!
# What holds of client and backend

The invariant of the two parties and of what is on its way between them, and that
every event keeps it.

## Main results

* `Recorded` — the states of the backend are what the log of its writes makes.
* `Synced` — the queue of the client, the log of the backend and the answers on
  the stream make an outbox, and the cache misses nothing that is not pending.
* `reached_inv` — it holds in every run, and no assertion of the client fails.
-/

namespace ValentinesDay.Ports.BackendSync

open ValentinesDay.Verified.Ledger
open ValentinesDay.Verified.Resend
open ValentinesDay.Verified.Run
open ValentinesDay.Ports.Firestore
open ValentinesDay.Ports.Persistence
open ValentinesDay.Ports.Mutations
open ValentinesDay.Ports.MutationQueue
open ValentinesDay.Ports.LocalDocuments
open ValentinesDay.Ports.WritePipeline

variable {σ : Type} {backend : Backend σ} {initial : σ}

/-! ## The backend's own books -/

/-- The documents in the state the backend has when the client starts. -/
def Backend.origin (backend : Backend σ) (initial : σ) : Origin where
  data := backend.data initial
  version := backend.version initial

variable (backend initial) in
/-- The log makes what the backend has, and each state it has had is a copy. -/
structure Recorded (s : σ) (past : List σ) (log : WriteLog) : Prop where
  rising : (backend.origin initial).RisingTo (backend.time s) log
  data : ∀ key, backend.data s key = (backend.origin initial).dataAt log key
  version : ∀ key, (backend.data s key).isSome →
    backend.version s key = (backend.origin initial).updateTime log key
  least : ∀ key, (backend.origin initial).updateTime log key ≤ backend.version s key
  states : ∀ s' ∈ s :: past, ∀ key, (backend.origin initial).CopyAt (backend.time s) log key
    (backend.version s' key) (backend.data s' key)

theorem recorded_nil (hb : backend.Documented) : Recorded backend initial initial [] [] where
  rising key := rising_nil (hb.dated initial key).2
  data _ := rfl
  version _ _ := rfl
  least _ := le_rfl
  states s' hs' key := by
    rw [List.mem_singleton.mp hs']
    exact copy_present le_rfl (hb.dated initial key).2

section Commit

variable {s s' : σ} {past : List σ} {log : WriteLog} {m : Mutation} {answer : Answer}

theorem Recorded.dataAt_concat (h : Recorded backend initial s past log)
    (hb : backend.Documented) (hok : backend.commit s m = .ok (s', answer)) (happ : m.FromApp)
    (n : Nat) (key : DocumentKey) :
    (backend.origin initial).dataAt (log ++ [⟨(m, n), backend.time s'⟩]) key =
      backend.data s' key := by
  rw [Origin.dataAt, after_concat, hb.carriedOut hok happ, ← appAt_of_fromApp happ, h.data]
  rfl

/-- The update time follows the documents. -/
theorem Recorded.updateTime_concat (h : Recorded backend initial s past log)
    (hb : backend.Documented) (hok : backend.commit s m = .ok (s', answer)) (happ : m.FromApp)
    (n : Nat) (key : DocumentKey) :
    (backend.origin initial).updateTime (log ++ [⟨(m, n), backend.time s'⟩]) key =
      if backend.data s' key = backend.data s key then
        (backend.origin initial).updateTime log key
      else backend.time s' := by
  have hdata := h.dataAt_concat hb hok happ n key
  rw [Origin.dataAt, after_concat] at hdata
  rw [Origin.updateTime, version_concat, hdata, h.data key]
  rfl

theorem Recorded.commit (h : Recorded backend initial s past log) (hb : backend.Documented)
    (hok : backend.commit s m = .ok (s', answer)) (happ : m.FromApp) (n : Nat) :
    Recorded backend initial s' (s :: past) (log ++ [⟨(m, n), backend.time s'⟩]) := by
  have hleast : ∀ key, (backend.origin initial).updateTime
      (log ++ [⟨(m, n), backend.time s'⟩]) key ≤ backend.version s' key := by
    intro key
    rw [h.updateTime_concat hb hok happ]
    split
    · next hsame =>
      cases hdata : backend.data s' key with
      | none => exact (h.least key).trans (hb.missing hok key hdata)
      | some data =>
          rw [hb.unchanged hok key hsame (by rw [← hsame, hdata]; rfl)]
          exact h.least key
    · next hchanged => exact (hb.changed hok key hchanged).ge
  refine
    { rising := fun key =>
        (h.rising key).concat (e := ⟨(m, n), backend.time s'⟩) (hb.later hok)
      data := fun key => (h.dataAt_concat hb hok happ n key).symm
      version := fun key hsome => ?_
      least := hleast
      states := fun s'' hs'' key => ?_ }
  · rw [h.updateTime_concat hb hok happ]
    split
    · next hsame =>
      rw [hsame] at hsome
      rw [hb.unchanged hok key hsame hsome, h.version key hsome]
    · next hchanged => exact hb.changed hok key hchanged
  · rcases List.mem_cons.mp hs'' with rfl | hold
    · have hpresent := copy_present (f := numberedAt key) (s := backend.data initial key)
        (hleast key) (hb.dated s'' key).2
      have hdata := h.dataAt_concat hb hok happ n key
      rw [Origin.dataAt] at hdata
      rw [← hdata]
      exact hpresent
    · exact Copy.concat (h.states s'' hold key) (hb.later hok)

/-- The answer to a write has the update time that the log gives. -/
theorem Recorded.updateTime_answer (h : Recorded backend initial s past log)
    (hb : backend.Documented)
    (hok : backend.commit s m = .ok (s', answer)) (happ : m.FromApp) (n : Nat) :
    answer.updateTime = (backend.origin initial).updateTime
      (log ++ [⟨(m, n), backend.time s'⟩]) m.key := by
  have hsome : (backend.data s' m.key).isSome := by
    rw [hb.carriedOut hok happ, Mutation.actAt_self rfl]
    exact isSome_act happ (hb.precondition hok)
  rw [hb.answered hok, (h.commit hb hok happ n).version m.key hsome]

end Commit

/-- What is sent in a snapshot. -/
theorem Recorded.sentAt {s s' : σ} {past : List σ} {log : WriteLog}
    (h : Recorded backend initial s past log) (hb : backend.Documented)
    (hs' : s' ∈ s :: past) (key : DocumentKey) :
    (backend.origin initial).SentAt (backend.time s) log key (backend.document s' key) := by
  have hpos := (hb.dated s' key).1
  have hcopy := h.states s' hs' key
  unfold Backend.document Origin.SentAt
  cases hdata : backend.data s' key with
  | none =>
      rw [hdata] at hcopy
      exact ⟨hpos.ne', hcopy⟩
  | some data =>
      rw [hdata] at hcopy
      exact ⟨hpos.ne', hcopy⟩

/-! ## The invariant -/

section Invariant

variable (backend initial)

/-- The client's queue `s`, the backend and what is between them make an
outbox `o`; `issued` are the writes of the app so far. -/
structure Synced (issued : List Mutation) (x : Sync σ) (s : PendingBatches)
    (o : Outbox (Mutation × Nat)) : Prop where
  client : Pipelined x.client s
  queue : s.batches.map (·.mutations) = o.pending.map fun w => [w.1]
  numbered : ∀ i w, o.pending[i]? = some w → w.2 = x.settled.length + i
  fromApp : ∀ w ∈ o.pending, w.1.FromApp
  log : o.log = x.log.map (·.op)
  acked : o.acked.map (·.1) = x.acknowledged
  inFlight : o.inFlight = x.answers.length
  refused : o.refused = x.refusal.isSome
  unsteady : o.unsteady = x.refusedAgain
  blamed : x.refusedAgain = true → ∃ e ∈ x.settled, e.2 = false
  permanent : ∀ status, x.refusal = some status → isPermanentWriteError status = .ok true
  answers : ∀ i answer w, x.answers[i]? = some answer → o.pending[i]? = some w →
    answer.updateTime =
      (backend.origin initial).updateTime (x.log.take (o.place + i + 1)) w.1.key
  documents : x.refusedAgain = false → ∀ key,
    Kept (backend.origin initial) (backend.time x.backend) x.log o x.lost key
      (x.client.localStore.remoteDocumentCache.get key)
  issued : x.settled.map (·.1) ++ o.pending.map (·.1) = issued
  recorded : Recorded backend initial x.backend x.past x.log

/-- Answers and refusals are on streams that are through the handshake. -/
def Answering (x : Sync σ) : Prop :=
  x.answers ≠ [] ∨ x.refusal ≠ none → x.client.writeStream.handshakeComplete = true

/-- What holds between the events. -/
def Inv (issued : List Mutation) (x : Sync σ) : Prop :=
  (∃ s o, Synced backend initial issued x s o) ∧ Answering x

variable {backend initial} {issued : List Mutation} {x : Sync σ} {s : PendingBatches}
  {o : Outbox (Mutation × Nat)}

theorem Synced.pending_eq (h : Synced backend initial issued x s o) :
    x.pending = o.pending.map (·.1) := by
  have hflat : ∀ ws : List (Mutation × Nat),
      (ws.map fun w => [w.1]).flatten = ws.map (·.1) := by
    intro ws
    induction ws with
    | nil => rfl
    | cons w ws ih => rw [List.map_cons, List.flatten_cons, ih]; rfl
  rw [Sync.pending, h.client.queue.rows, List.flatMap_def, h.queue, hflat]

theorem Synced.lose (h : Synced backend initial issued x s o) :
    Synced backend initial issued x.lose s o.reconnect where
  client := h.client
  queue := h.queue
  numbered := h.numbered
  fromApp := h.fromApp
  log := h.log
  acked := h.acked
  inFlight := rfl
  refused := rfl
  unsteady := h.unsteady
  blamed := h.blamed
  permanent _ hnone := by cases hnone
  answers _ _ _ hnone := by cases hnone
  documents hsteady key := by
    have hkept := (h.documents hsteady key).reconnect h.log
    rw [← h.pending_eq, h.inFlight] at hkept
    exact hkept
  issued := h.issued
  recorded := h.recorded

/-- What an event at the client is to do. -/
theorem tell_inv {P : RemoteStore → Prop} {e : ClientEvent}
    (hok : Succeeds P (x.client.step e))
    (h : ∀ r, P r → ∃ s o, Synced backend initial issued { x with client := r } s o) :
    Succeeds (Inv backend initial issued) (x.tell e) := by
  obtain ⟨r, hr, hP⟩ := hok.exists_ok
  obtain ⟨s, o, hsynced⟩ := h r hP
  rw [Sync.tell, hr]
  show Inv backend initial issued (if r.writeStream.handshakeComplete then _ else _)
  by_cases hcomplete : r.writeStream.handshakeComplete = true
  · rw [if_pos hcomplete]
    exact ⟨⟨s, o, hsynced⟩, fun _ => hcomplete⟩
  · rw [if_neg hcomplete]
    refine ⟨⟨s, o.reconnect, hsynced.lose⟩, ?_⟩
    rintro (hne | hne) <;> exact absurd rfl hne

/-- An event that leaves queue and documents as they are. -/
theorem Synced.stay (h : Synced backend initial issued x s o) {e : ClientEvent}
    {r : RemoteStore} (hr : Stepped x.client s e r)
    (hqueue : (queueAfter x.client s e).batches = s.batches)
    (hdocuments : x.refusedAgain = false → ∀ key,
      Kept (backend.origin initial) (backend.time x.backend) x.log o x.lost key
        (documentAfter x.client key e)) :
    Synced backend initial issued { x with client := r } (queueAfter x.client s e) o where
  client := hr.pipelined
  queue := by rw [hqueue, h.queue]
  numbered := h.numbered
  fromApp := h.fromApp
  log := h.log
  acked := h.acked
  inFlight := h.inFlight
  refused := h.refused
  unsteady := h.unsteady
  blamed := h.blamed
  permanent := h.permanent
  answers := h.answers
  documents hsteady key := by
    rw [hr.documents]
    exact hdocuments hsteady key
  issued := h.issued
  recorded := h.recorded

theorem tell_stay (h : Synced backend initial issued x s o) {e : ClientEvent}
    (hconforms : x.client.Conforms e)
    (hqueue : (queueAfter x.client s e).batches = s.batches)
    (hdocuments : x.refusedAgain = false → ∀ key,
      Kept (backend.origin initial) (backend.time x.backend) x.log o x.lost key
        (documentAfter x.client key e)) :
    Succeeds (Inv backend initial issued) (x.tell e) :=
  tell_inv (step_stepped h.client hconforms) fun _ hr => ⟨_, _, h.stay hr hqueue hdocuments⟩

/-! ### The app and the client -/

theorem write_inv (h : Synced backend initial issued x s o) (w : Write) :
    Succeeds (Inv backend initial (issued ++ [toMutation w]))
      (x.tell (.write [toMutation w])) := by
  refine tell_inv (step_stepped h.client (e := .write [toMutation w]) trivial) ?_
  intro r hr
  have hne : [toMutation w] ≠ [] := List.cons_ne_nil _ _
  have hafter : queueAfter x.client s (.write [toMutation w]) = s.push [toMutation w] hne := by
    rw [queueAfter, dif_neg hne]
  have hpipelined := hr.pipelined
  rw [hafter] at hpipelined
  have hlength : x.answers.length ≤ o.pending.length := by
    rw [← h.inFlight]
    exact o.inFlight_le
  -- the new write has the next number
  exact ⟨_, o.issue (toMutation w, x.settled.length + o.pending.length),
    { client := hpipelined
      queue := by
        show (s.batches ++ [(⟨s.next, [toMutation w]⟩ : MutationBatch)]).map
          (fun b => b.mutations) =
            (o.pending ++ [_]).map fun (w : Mutation × Nat) => [w.1]
        rw [List.map_append, h.queue, List.map_append]
        rfl
      numbered := fun i w' hw' => by
        rcases lt_or_ge i o.pending.length with hlt | hge
        · refine h.numbered i w' ?_
          rw [← hw']
          exact (List.getElem?_append_left hlt).symm
        · have hlast : (o.pending ++ [(toMutation w,
              x.settled.length + o.pending.length)])[i]? = some w' := hw'
          rw [List.getElem?_append_right hge, List.getElem?_singleton] at hlast
          split at hlast
          · cases hlast
            show x.settled.length + o.pending.length = x.settled.length + i
            omega
          · cases hlast
      fromApp := fun w' hw' => by
        rcases List.mem_append.mp hw' with hold | hnew
        · exact h.fromApp w' hold
        · rw [List.mem_singleton.mp hnew]
          exact fromApp_toMutation w
      log := h.log
      acked := h.acked
      inFlight := h.inFlight
      refused := h.refused
      unsteady := h.unsteady
      blamed := h.blamed
      permanent := h.permanent
      answers := fun i answer w' hanswer hw' => by
        have hlt : i < o.pending.length :=
          (List.getElem?_eq_some_iff.mp hanswer).1.trans_le hlength
        refine h.answers i answer w' hanswer ?_
        rw [← hw']
        exact (List.getElem?_append_left hlt).symm
      documents := fun hsteady key => by
        rw [hr.documents]
        exact (h.documents hsteady key).issue _
      issued := by
        rw [← h.issued, List.append_assoc]
        show _ ++ (o.pending ++ [_]).map Prod.fst = _
        rw [List.map_append]
        rfl
      recorded := h.recorded }⟩

theorem local_inv (h : Synced backend initial issued x s o) {e : ClientEvent}
    (he : isLocal e = true) : Succeeds (Inv backend initial issued) (x.tell e) := by
  cases e with
  | write mutations => cases he
  | response commitVersion versions => cases he
  | finish status => cases he
  | remoteEvent event => cases he
  | relaunch =>
      refine tell_stay h (e := .relaunch) trivial ?_ h.documents
      rw [queueAfter]
      split
      · next hempty => exact hempty.symm
      · rfl
  | credentials status => exact tell_stay h trivial rfl h.documents
  | streamStart => exact tell_stay h trivial rfl h.documents
  | backoffElapsed => exact tell_stay h trivial rfl h.documents
  | idleTimeout => exact tell_stay h trivial rfl h.documents
  | enableNetwork => exact tell_stay h trivial rfl h.documents
  | disableNetwork => exact tell_stay h trivial rfl h.documents
  | connectivityChanged => exact tell_stay h trivial rfl h.documents

theorem handshake_inv (h : Inv backend initial issued x) :
    Succeeds (Inv backend initial issued) x.handshake := by
  obtain ⟨⟨s, o, hsynced⟩, hanswering⟩ := h
  rw [Sync.handshake]
  split
  · next rest hstream =>
    -- the handshake is not over
    have hopen : x.client.writeStream.handshakeComplete = false := by
      by_contra hcomplete
      have hrequests := hsynced.client.phase.of_handshakeComplete (by simpa using hcomplete)
      rw [hstream] at hrequests
      cases hpipeline : x.client.writePipeline with
      | nil => simp [hpipeline] at hrequests
      | cons batch batches => simp [hpipeline] at hrequests
    have hconforms : x.client.Conforms (.response 0 []) := by
      rw [RemoteStore.Conforms, hstream]
      trivial
    refine tell_stay hsynced hconforms ?_ ?_
    · rw [queueAfter, hopen]
      rfl
    · intro hsteady key
      have hsame : documentAfter x.client key (.response 0 []) =
          x.client.localStore.remoteDocumentCache.get key := by
        rw [documentAfter, hopen]
        cases x.client.writePipeline <;> rfl
      rw [hsame]
      exact hsynced.documents hsteady key
  · exact ⟨⟨s, o, hsynced⟩, hanswering⟩

theorem snapshot_inv (hb : backend.Documented) (h : Inv backend initial issued x)
    (version : Nat) (sent : List (Nat × DocumentKey)) :
    Succeeds (Inv backend initial issued) (x.snapshot backend version sent) := by
  obtain ⟨⟨s, o, hsynced⟩, -⟩ := h
  rw [Sync.snapshot]
  refine tell_stay hsynced trivial rfl ?_
  intro hsteady key
  rw [documentAfter]
  split
  · refine (hsynced.documents hsteady key).updates ?_
    intro e he
    obtain ⟨hmem, hkey⟩ := List.mem_filter.mp he
    obtain ⟨⟨age, key'⟩, -, hsent⟩ := List.mem_filterMap.mp hmem
    obtain ⟨s', hs', rfl⟩ := Option.map_eq_some_iff.mp hsent
    have hkey' : key' = key := by simpa using hkey
    rw [hkey']
    exact hsynced.recorded.sentAt hb (List.mem_of_getElem? hs') key
  · exact hsynced.documents hsteady key

theorem disconnect_inv (h : Inv backend initial issued x) (status : ErrorCode) :
    Succeeds (Inv backend initial issued) (x.disconnect status) := by
  obtain ⟨⟨s, o, hsynced⟩, hanswering⟩ := h
  rw [Sync.disconnect]
  by_cases hstatus : x.client.Conforms (.finish status) ∧
      (x.client.writeStream.handshakeComplete → isPermanentWriteError status ≠ .ok true)
  · rw [if_pos hstatus]
    refine tell_stay hsynced hstatus.1 ?_ hsynced.documents
    rw [queueAfter, if_neg fun hrejected => hstatus.2 hrejected.1 hrejected.2.2]
  · rw [if_neg hstatus]
    exact ⟨⟨s, o, hsynced⟩, hanswering⟩

/-! ### Requests -/

/-- The requests on a stream are the pending writes. -/
theorem Synced.getElem?_pending (h : Synced backend initial issued x s o) {i : Nat}
    {m : Mutation}
    (hrequest : (x.client.writeStream.grpcStream.getD [])[i]? =
      some (.writeMutations [m])) :
    x.client.writeStream.handshakeComplete = true ∧
      o.pending[i]? = some (m, x.settled.length + i) := by
  have hwriting : ∀ {stream : WriteStream} {pipeline : List MutationBatch},
      Phase false pipeline stream →
      (stream.grpcStream.getD [])[i]? = some (.writeMutations [m]) →
      stream.handshakeComplete = true ∧
        (pipeline.map (·.mutations))[i]? = some [m] := by
    intro stream pipeline hphase hget
    cases hphase with
    | initial => simp at hget
    | error => simp at hget
    | backoff => simp at hget
    | authenticating => simp at hget
    | connecting => simp at hget
    | shakingHands => simp [List.getElem?_cons] at hget
    | writing idle hidle =>
        refine ⟨rfl, ?_⟩
        rw [Option.getD_some, List.getElem?_map, Option.map_eq_some_iff] at hget
        obtain ⟨batch, hbatch, hmutations⟩ := hget
        rw [List.getElem?_map, hbatch, Option.map_some,
          Request.writeMutations.inj hmutations]
  obtain ⟨hcomplete, hpipeline⟩ := hwriting h.client.phase hrequest
  refine ⟨hcomplete, ?_⟩
  have hpre : x.client.writePipeline.map (·.mutations) <+: s.batches.map (·.mutations) :=
    h.client.isPrefix.map _
  have hlt := (List.getElem?_eq_some_iff.mp hpipeline).1
  have hbatch := List.prefix_iff_getElem?.mp hpre i hlt
  rw [← List.getElem?_eq_getElem hlt, hpipeline, h.queue, List.getElem?_map,
    Option.map_eq_some_iff] at hbatch
  obtain ⟨⟨m', n⟩, hw, hsingle⟩ := hbatch
  cases hsingle
  have hnumber := h.numbered i _ hw
  rw [hw, ← hnumber]

/-- When an answer or a refusal arrives, the pipeline begins with the first
pending write. -/
theorem Synced.front (h : Synced backend initial issued x s o)
    (hcomplete : x.client.writeStream.handshakeComplete = true) {w : Mutation × Nat}
    {rest : List (Mutation × Nat)} (hfront : o.pending = w :: rest) :
    ∃ batch batches, x.client.writePipeline = batch :: batches ∧
      batch.mutations = [w.1] := by
  have hstream := h.client.phase.of_handshakeComplete hcomplete
  have henabled : x.client.isNetworkEnabled = true := by
    refine h.client.enabled_of_isStarted (h.client.phase.isStarted_of_grpcStream ?_)
    rw [hstream]
    rfl
  have hqueue := h.queue
  rw [hfront, List.map_cons, List.map_eq_cons_iff] at hqueue
  obtain ⟨batch, batches, hbatches, hmutations, -⟩ := hqueue
  have hpipeline := h.client.pipeline
  rw [if_pos henabled, hbatches] at hpipeline
  exact ⟨batch, _, hpipeline, hmutations⟩

/-- The first pending write has the next number. -/
theorem Synced.front_eq (h : Synced backend initial issued x s o) {w : Mutation × Nat}
    {rest : List (Mutation × Nat)} (hfront : o.pending = w :: rest) :
    w = (w.1, x.settled.length) := by
  have hnumber := h.numbered 0 w (by rw [hfront]; rfl)
  exact Prod.ext rfl hnumber

/-! ### The backend turns to a write -/

section Process

variable {m : Mutation}

theorem Synced.carryOut (h : Synced backend initial issued x s o) (hb : backend.Documented)
    (hrefusal : x.refusal = none) (hrefused : o.refused = false)
    (hnext : o.pending[o.inFlight]? = some (m, x.settled.length + x.answers.length))
    {next : σ} {answer : Answer} (hok : backend.commit x.backend m = .ok (next, answer)) :
    Synced backend initial issued
      { x with
        backend := next
        past := x.backend :: x.past
        log := x.log ++ [⟨(m, x.settled.length + x.answers.length), backend.time next⟩]
        answers := x.answers ++ [answer] } s (o.carryOut hnext hrefused) where
  client := h.client
  queue := h.queue
  numbered := h.numbered
  fromApp := h.fromApp
  log := by
    show o.log ++ [_] = _
    rw [h.log, List.map_append]
    rfl
  acked := h.acked
  inFlight := by
    show o.inFlight + 1 = (x.answers ++ [answer]).length
    rw [List.length_append, h.inFlight]
    rfl
  refused := by
    rw [hrefusal]
    rfl
  unsteady := h.unsteady
  blamed := h.blamed
  permanent := h.permanent
  answers i answer' w' hanswer hw' := by
    have hle := o.inFlight_le_log
    have hlength := length_log h.log
    have hplace : (o.carryOut hnext hrefused).place = o.place := by
      show (o.log ++ [_]).length - (o.inFlight + 1) = o.log.length - o.inFlight
      rw [List.length_append, List.length_singleton, Nat.add_sub_add_right]
    have hplace' : o.place + o.inFlight = x.log.length := by
      unfold Outbox.place
      omega
    have hw'' : o.pending[i]? = some w' := hw'
    rw [hplace]
    by_cases hi : i < x.answers.length
    · rw [List.getElem?_append_left hi] at hanswer
      rw [← h.inFlight] at hi
      rw [List.take_append_of_le_length (by omega)]
      exact h.answers i answer' w' hanswer hw''
    · -- the new answer
      rw [List.getElem?_append_right (not_lt.mp hi), List.getElem?_singleton,
        ← h.inFlight] at hanswer
      split at hanswer
      · next hzero =>
        rw [← h.inFlight] at hi
        have hieq : i = o.inFlight := by omega
        subst hieq
        rw [hnext] at hw''
        cases hw''
        cases hanswer
        rw [hplace', List.take_of_length_le (by simp)]
        exact h.recorded.updateTime_answer hb hok (h.fromApp _ (List.mem_of_getElem? hnext)) _
      · cases hanswer
  documents hsteady key :=
    (h.documents hsteady key).carryOut
      (e := ⟨(m, x.settled.length + x.answers.length), backend.time next⟩) hnext hrefused
      (hb.later hok)
  issued := h.issued
  recorded := h.recorded.commit hb hok (h.fromApp _ (List.mem_of_getElem? hnext)) _

theorem Synced.refuse (h : Synced backend initial issued x s o) (hb : backend.Documented)
    {w : Mutation × Nat} (hnext : o.pending[o.inFlight]? = some w) {status : ErrorCode}
    (herror : backend.commit x.backend m = .error status) :
    Synced backend initial issued { x with refusal := some status } s (o.refuse hnext) where
  client := h.client
  queue := h.queue
  numbered := h.numbered
  fromApp := h.fromApp
  log := h.log
  acked := h.acked
  inFlight := h.inFlight
  refused := rfl
  unsteady := h.unsteady
  blamed := h.blamed
  permanent status' hstatus' := by
    cases hstatus'
    exact hb.permanent herror
  answers := h.answers
  documents hsteady key := (h.documents hsteady key).refuse hnext
  issued := h.issued
  recorded := h.recorded

end Process

theorem process_inv (hb : backend.Documented) (h : Inv backend initial issued x) :
    Inv backend initial issued (x.process backend) := by
  obtain ⟨⟨s, o, hsynced⟩, hanswering⟩ := h
  rw [Sync.process]
  split
  · next m hrefusal hrequest =>
    obtain ⟨hcomplete, hnext⟩ := hsynced.getElem?_pending hrequest
    rw [← hsynced.inFlight] at hnext
    have hrefused : o.refused = false := by
      rw [hsynced.refused, hrefusal]
      rfl
    split
    · next next answer hok =>
      have hnext' : o.pending[o.inFlight]? = some (m, x.settled.length + x.answers.length) := by
        rw [hnext, hsynced.inFlight]
      exact ⟨⟨s, _, hsynced.carryOut hb hrefusal hrefused hnext' hok⟩, fun _ => hcomplete⟩
    · next status herror =>
      exact ⟨⟨s, _, hsynced.refuse hb hnext herror⟩, fun _ => hcomplete⟩
  · exact ⟨⟨s, o, hsynced⟩, hanswering⟩

/-! ### The client learns -/

/-- The batch at the front has one mutation, and its answer one version. -/
theorem acknowledged_of_single {batch : MutationBatch} {m : Mutation}
    (hbatch : batch.mutations = [m]) (commitVersion : Nat) {time : Nat} (htime : 0 < time)
    (key : DocumentKey) (doc : Option MaybeDocument) :
    (if batch.affects key then
        LocalDocuments.acknowledged ⟨batch, commitVersion, [time]⟩ key doc
      else doc) = if m.key = key then answered m time doc else doc := by
  have haffects : batch.affects key = decide (m.key = key) := by
    rw [MutationBatch.affects, hbatch]
    simp
  by_cases hkey : m.key = key
  · have hversion :
        LocalStore.docVersion ⟨batch, commitVersion, [time]⟩ key = some time := by
      rw [LocalStore.docVersion, hbatch]
      simp [hkey]
    have hnewer : (∀ d ∈ doc, d.version < time) ↔ versionOf doc < time := by
      cases doc with
      | none => simp [versionOf, htime]
      | some d => simp [versionOf]
    rw [haffects, if_pos (decide_eq_true hkey), if_pos hkey, LocalDocuments.acknowledged,
      hversion, answered]
    simp only [hnewer, hbatch]
    simp [hkey]
  · rw [haffects, if_neg (by simpa using hkey), if_neg hkey]

theorem acknowledged_append_of_accepted (x : Sync σ) (m : Mutation) :
    ((x.settled ++ [(m, true)]).filter (·.2)).map (·.1) = x.acknowledged ++ [m] := by
  rw [List.filter_append, List.map_append]
  rfl

theorem acknowledged_append_of_refused (x : Sync σ) (m : Mutation) :
    ((x.settled ++ [(m, false)]).filter (·.2)).map (·.1) = x.acknowledged := by
  rw [List.filter_append, List.map_append]
  exact List.append_nil _

section Settle

variable {w : Mutation × Nat} {rest : List (Mutation × Nat)}

/-- The client takes the first pending write for the one that is answered. -/
theorem Synced.front_eq_single (h : Synced backend initial issued x s o)
    (hcomplete : x.client.writeStream.handshakeComplete = true)
    (hfront : o.pending = w :: rest) : x.front = [w.1] := by
  obtain ⟨batch, batches, hpipeline, hbatch⟩ := h.front hcomplete hfront
  rw [Sync.front, hpipeline, List.head?_cons, Option.map_some, Option.getD_some, hbatch]

theorem Synced.queue_rest (h : Synced backend initial issued x s o)
    (hfront : o.pending = w :: rest) :
    s.pop.batches.map (·.mutations) = rest.map fun w => [w.1] := by
  show s.batches.tail.map (·.mutations) = _
  rw [List.map_tail, h.queue, hfront]
  rfl

theorem Synced.fromApp_rest (h : Synced backend initial issued x s o)
    (hfront : o.pending = w :: rest) (w' : Mutation × Nat) (hw' : w' ∈ rest) :
    w'.1.FromApp :=
  h.fromApp w' (by rw [hfront]; exact List.mem_cons_of_mem w hw')

/-- With one write more settled, the others keep their numbers. -/
theorem Synced.numbered_rest (h : Synced backend initial issued x s o)
    (hfront : o.pending = w :: rest) (accepted : Bool) (i : Nat) (w' : Mutation × Nat)
    (hw' : rest[i]? = some w') : w'.2 = (x.settled ++ [(w.1, accepted)]).length + i := by
  have hnumber := h.numbered (i + 1) w' (by rw [hfront]; exact hw')
  rw [List.length_append, List.length_singleton]
  omega

theorem Synced.issued_rest (h : Synced backend initial issued x s o)
    (hfront : o.pending = w :: rest) (accepted : Bool) :
    (x.settled ++ [(w.1, accepted)]).map (·.1) ++ rest.map (·.1) = issued := by
  rw [← h.issued, hfront, List.map_append, List.append_assoc]
  rfl

end Settle

/-- An update time is later than `SnapshotVersion::None()`. -/
theorem updateTime_pos (hb : backend.Documented) (h : Recorded backend initial x.backend
    x.past x.log) (n : Nat) (key : DocumentKey) :
    0 < (backend.origin initial).updateTime (x.log.take n) key := by
  have hstart : 0 < backend.version initial key := (hb.dated initial key).1
  have hmono := (h.rising key).version_mono (f := numberedAt key)
    (s := backend.data initial key) (Nat.zero_le n)
  rw [List.take_zero] at hmono
  exact hstart.trans_le hmono

/-- The document of the write that is answered, and the others. -/
theorem documentAfter_answer (hb : backend.Documented) (h : Synced backend initial issued x s o)
    (hcomplete : x.client.writeStream.handshakeComplete = true) {w : Mutation × Nat}
    {rest : List (Mutation × Nat)} (hfront : o.pending = w :: rest) {answer : Answer}
    (htime : answer.updateTime =
      (backend.origin initial).updateTime (x.log.take (o.place + 1)) w.1.key)
    (key : DocumentKey) :
    documentAfter x.client key (.response answer.commitTime [answer.updateTime]) =
      if w.1.key = key then
        answered w.1 answer.updateTime (x.client.localStore.remoteDocumentCache.get key)
      else x.client.localStore.remoteDocumentCache.get key := by
  obtain ⟨batch, batches, hpipeline, hbatch⟩ := h.front hcomplete hfront
  rw [documentAfter, hpipeline]
  simp only [hcomplete, true_and]
  refine acknowledged_of_single hbatch _ ?_ key _
  rw [htime]
  exact updateTime_pos hb h.recorded _ _

/-- One version answers a batch of one mutation. -/
theorem conforms_response {r : RemoteStore} (h : Pipelined r s)
    (hcomplete : r.writeStream.handshakeComplete = true) {batch : MutationBatch}
    {batches : List MutationBatch} {m : Mutation}
    (hpipeline : r.writePipeline = batch :: batches) (hbatch : batch.mutations = [m])
    (commitVersion version : Nat) : r.Conforms (.response commitVersion [version]) := by
  rw [RemoteStore.Conforms, h.phase.of_handshakeComplete hcomplete, hpipeline,
    List.map_cons, hbatch]
  rfl

/-- The first answer on its way. -/
theorem answer_inv (hb : backend.Documented) (h : Synced backend initial issued x s o)
    (hcomplete : x.client.writeStream.handshakeComplete = true) {answer : Answer}
    {answers : List Answer} (hanswers : x.answers = answer :: answers) :
    Succeeds (Inv backend initial issued)
      (({ x with
        answers := answers
        settled := x.settled ++ x.front.map fun m => (m, true) } : Sync σ).tell
          (.response answer.commitTime [answer.updateTime])) := by
  have hway : 0 < o.inFlight := by
    rw [h.inFlight, hanswers]
    exact Nat.succ_pos _
  obtain ⟨w, rest, hfront⟩ := List.exists_cons_of_length_pos (hway.trans_le o.inFlight_le)
  have happ : w.1.FromApp := h.fromApp w (by rw [hfront]; exact List.mem_cons_self)
  have htime : answer.updateTime =
      (backend.origin initial).updateTime (x.log.take (o.place + 1)) w.1.key :=
    h.answers 0 answer w (by rw [hanswers]; rfl) (by rw [hfront]; rfl)
  have hconforms : x.client.Conforms (.response answer.commitTime [answer.updateTime]) := by
    obtain ⟨batch, batches, hpipeline, hbatch⟩ := h.front hcomplete hfront
    exact conforms_response h.client hcomplete hpipeline hbatch _ _
  rw [h.front_eq_single hcomplete hfront]
  refine tell_inv (step_stepped h.client hconforms) ?_
  intro r hr
  have hafter : queueAfter x.client s
      (.response answer.commitTime [answer.updateTime]) = s.pop := if_pos hcomplete
  have hpipelined := hr.pipelined
  rw [hafter] at hpipelined
  have hplace : (o.acknowledge hfront hway).place = o.place + 1 := by
    have hle := o.inFlight_le_log
    show o.log.length - (o.inFlight - 1) = o.log.length - o.inFlight + 1
    omega
  exact ⟨_, o.acknowledge hfront hway,
    { client := hpipelined
      queue := h.queue_rest hfront
      numbered := h.numbered_rest hfront true
      fromApp := h.fromApp_rest hfront
      log := h.log
      acked := by
        show (o.acked ++ [w]).map (·.1) =
          ((x.settled ++ [(w.1, true)]).filter (·.2)).map (·.1)
        rw [acknowledged_append_of_accepted, List.map_append, h.acked]
        rfl
      inFlight := by
        show o.inFlight - 1 = answers.length
        rw [h.inFlight, hanswers]
        rfl
      refused := h.refused
      unsteady := h.unsteady
      blamed := fun hagain => by
        obtain ⟨e, he, hfalse⟩ := h.blamed hagain
        exact ⟨e, List.mem_append_left _ he, hfalse⟩
      permanent := h.permanent
      answers := fun i answer' w' hanswer' hw' => by
        rw [hplace, Nat.add_right_comm o.place 1 i]
        refine h.answers (i + 1) answer' w' ?_ ?_
        · rw [hanswers]
          exact hanswer'
        · rw [hfront]
          exact hw'
      documents := fun hsteady key => by
        rw [hr.documents]
        show Kept _ _ _ _ _ key (documentAfter x.client key _)
        rw [documentAfter_answer hb h hcomplete hfront htime]
        by_cases hkey : w.1.key = key
        · subst hkey
          rw [if_pos rfl, htime]
          exact (h.documents hsteady w.1.key).acknowledge_self h.recorded.rising h.log happ
            hfront hway
        · rw [if_neg hkey]
          exact (h.documents hsteady key).acknowledge_other h.log hfront hway hkey
      issued := h.issued_rest hfront true
      recorded := h.recorded }⟩

/-- The end of the stream at a write that was refused. -/
theorem refusal_inv (h : Synced backend initial issued x s o)
    (hcomplete : x.client.writeStream.handshakeComplete = true) (hanswers : x.answers = [])
    {status : ErrorCode} (hrefusal : x.refusal = some status) :
    Succeeds (Inv backend initial issued)
      (({ x with
        refusal := none
        settled := x.settled ++ x.front.map fun m => (m, false)
        refusedAgain := x.refusedAgain || x.front.any x.carriedOut } : Sync σ).tell
          (.finish status)) := by
  have hnone : o.inFlight = 0 := by
    rw [h.inFlight, hanswers]
    rfl
  have hasked : o.inFlight < o.pending.length := o.asked <| by
    rw [h.refused, hrefusal]
    rfl
  obtain ⟨w, rest, hfront⟩ := List.exists_cons_of_length_pos (Nat.zero_lt_of_lt hasked)
  have hpermanent := h.permanent status hrefusal
  have hagain : [w.1].any x.carriedOut = decide (w ∈ o.log) := by
    rw [List.any_cons, List.any_nil, Bool.or_false, Sync.carriedOut, ← h.front_eq hfront,
      h.log]
  have hconforms : x.client.Conforms (.finish status) := by
    rintro rfl
    cases hpermanent
  rw [h.front_eq_single hcomplete hfront]
  refine tell_inv (step_stepped h.client hconforms) ?_
  intro r hr
  have hafter : queueAfter x.client s (.finish status) = s.pop := by
    obtain ⟨batch, batches, hpipeline, -⟩ := h.front hcomplete hfront
    exact if_pos ⟨hcomplete, by rw [hpipeline]; exact List.cons_ne_nil _ _, hpermanent⟩
  have hpipelined := hr.pipelined
  rw [hafter] at hpipelined
  exact ⟨_, o.drop hfront,
    { client := hpipelined
      queue := h.queue_rest hfront
      numbered := h.numbered_rest hfront false
      fromApp := h.fromApp_rest hfront
      log := h.log
      acked := by
        show o.acked.map (·.1) = ((x.settled ++ [(w.1, false)]).filter (·.2)).map (·.1)
        rw [acknowledged_append_of_refused, h.acked]
      inFlight := by
        rw [hanswers]
        rfl
      refused := rfl
      unsteady := by
        rw [o.unsteady_drop hfront, h.unsteady, ← hagain]
      blamed := fun _ => ⟨(w.1, false), List.mem_append_right _ List.mem_cons_self, rfl⟩
      permanent := fun status' hstatus' => by cases hstatus'
      answers := fun i answer' w' hanswer' => by
        rw [hanswers] at hanswer'
        cases hanswer'
      documents := fun hsteady key => by
        obtain ⟨hsteady, hfresh⟩ := Bool.or_eq_false_iff.mp hsteady
        rw [hagain] at hfresh
        rw [hr.documents]
        exact (h.documents hsteady key).drop h.log hfront (of_decide_eq_false hfresh) hnone
      issued := h.issued_rest hfront false
      recorded := h.recorded }⟩

theorem deliver_inv (hb : backend.Documented) (h : Inv backend initial issued x) :
    Succeeds (Inv backend initial issued) x.deliver := by
  obtain ⟨⟨s, o, hsynced⟩, hanswering⟩ := h
  rw [Sync.deliver]
  split
  · next answer answers _ hanswers =>
    have hcomplete := hanswering (.inl (by rw [hanswers]; exact List.cons_ne_nil _ _))
    exact answer_inv hb hsynced hcomplete hanswers
  · next status hanswers hrefusal =>
    have hcomplete := hanswering (.inr (by rw [hrefusal]; exact Option.some_ne_none _))
    exact refusal_inv hsynced hcomplete hanswers hrefusal
  · exact ⟨⟨s, o, hsynced⟩, hanswering⟩

/-! ## Runs -/

/-- **Steps.** -/
theorem step_inv (hb : backend.Documented) (h : Inv backend initial issued x)
    (e : SyncEvent) : Succeeds (Inv backend initial (issued ++ e.writes.map toMutation))
      (x.step backend e) := by
  have hquiet : issued ++ ([] : List Write).map toMutation = issued := List.append_nil _
  cases e with
  | write w =>
      obtain ⟨⟨s, o, hsynced⟩, -⟩ := h
      exact write_inv hsynced w
  | client e =>
      show Succeeds (Inv backend initial (issued ++ ([] : List Write).map toMutation))
        (if isLocal e then x.tell e else .ok x)
      rw [hquiet]
      split
      · next hlocal =>
        obtain ⟨⟨s, o, hsynced⟩, -⟩ := h
        exact local_inv hsynced hlocal
      · exact h
  | handshake => exact hquiet.symm ▸ handshake_inv h
  | process => exact hquiet.symm ▸ process_inv hb h
  | deliver => exact hquiet.symm ▸ deliver_inv hb h
  | disconnect status => exact hquiet.symm ▸ disconnect_inv h status
  | snapshot version sent => exact hquiet.symm ▸ snapshot_inv hb h version sent

theorem started_inv (hb : backend.Documented) :
    Succeeds (Inv backend initial []) (started initial) := by
  obtain ⟨r, hr, hpipelined, -, hcache⟩ := (launched_ok
    (show LocalStore.fresh.mutationQueue.Represents PendingBatches.empty from
      LevelDbMutationQueue.opened_represents)).exists_ok
  rw [ite_self] at hpipelined
  rw [started, hr]
  show Inv backend initial [] _
  refine ⟨⟨PendingBatches.empty, Outbox.empty, ?_⟩, ?_⟩
  · exact
      { client := hpipelined
        queue := rfl
        numbered := fun _ _ hnone => by cases hnone
        fromApp := by simp [Outbox.empty]
        log := rfl
        acked := rfl
        inFlight := rfl
        refused := rfl
        unsteady := rfl
        blamed := fun hagain => by cases hagain
        permanent := fun _ hnone => by cases hnone
        answers := fun _ _ _ hnone => by cases hnone
        documents := fun _ key =>
          { pending := fun i e he => by cases he.1.1
            onItsWay := fun _ i e he => by cases he.1.1
            copy := fun htrusted => by
              obtain ⟨d, hd, -⟩ := htrusted
              rw [hcache] at hd
              cases hd }
        issued := rfl
        recorded := recorded_nil hb }
  · rintro (hne | hne) <;> exact absurd rfl hne

/-- **Runs.** -/
theorem reached_inv (hb : backend.Documented) (initial : σ) (es : List SyncEvent) :
    Succeeds (Inv backend initial ((writesOf es).map toMutation))
      (reached backend initial es) := by
  have hrun : Succeeds (Inv backend initial
      (trace (halting fun (x : Sync σ) e => x.step backend e)
        (fun _ (e : SyncEvent) => e.writes.map toMutation) (started initial) es))
      (reached backend initial es) :=
    trace_inv (I := fun p issued => Succeeds (Inv backend initial issued) p)
      (fun p e issued hp => ends_halting hp fun x _ hx => step_inv hb hx e) (started_inv hb) es
  rw [trace_event, ← List.map_flatMap] at hrun
  exact hrun

end Invariant

end ValentinesDay.Ports.BackendSync
