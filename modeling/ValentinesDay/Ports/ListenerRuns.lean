import ValentinesDay.Ports.ListenerSteps

/-!
# Runs of a client with listeners

Whatever the app, the network and the backend do within `ClientEvent.Allowed`, the
client lives (`listened_inv`), and its listeners can rely on what they are told.

## Main results

* `listener_agrees`, `replay_agrees` — every listener that has been told anything
  was last handed what the view shows, and whoever made the changes of all its
  snapshots has that as well.
* `untold_quiet` — a listener that has been told nothing has nothing to show, and
  may still hear from the backend, or waits for it.
* `confirmed_run` — what is not from the cache is confirmed by the backend.
-/

namespace ValentinesDay.Ports.QueryListeners

open ValentinesDay.Ports.Runtime
open ValentinesDay.Ports.Firestore
open ValentinesDay.Ports.Mutations
open ValentinesDay.Ports.MutationQueue
open ValentinesDay.Ports.Queries
open ValentinesDay.Ports.LocalDocuments
open ValentinesDay.Ports.QueryEngine
open ValentinesDay.Ports.DocumentSets
open ValentinesDay.Ports.QueryLimits
open ValentinesDay.Ports.QueryView
open ValentinesDay.Ports.StoreChanges
open ValentinesDay.Verified.OrderedTable
open ValentinesDay.Verified.Run

universe u

variable {κ : Type u} [LinearOrder κ] {comparator : DocumentComparator κ}

/-! ## What listeners can rely on -/

section Runs

variable {query : Query}

/-- A new client. -/
def Client.fresh : Client comparator where
  store := LocalStore.fresh
  target := none
  view := none
  viewSnapshot := none
  listeners := []
  onlineState := .unknown

theorem inv_fresh : Inv query (Client.fresh : Client comparator) Outline.none where
  store := ⟨LevelDbMutationQueue.opened_represents, rfl⟩
  count := rfl
  idle := fun _ => ⟨rfl, rfl⟩
  known := fun hne => absurd rfl hne
  unknown := fun _ => rfl
  serves := fun hne => absurd rfl hne

/-- The state after a run of a new client. -/
def listened (comparator : DocumentComparator κ) (query : Query)
    (events : List ClientEvent) : Except Crash (Client comparator) :=
  exec (halting fun client event => client.step query event) (.ok Client.fresh) events

/-- The callers keep to their part all along a run. -/
def AllowedRun (events : List ClientEvent) : Prop :=
  Along ClientEvent.next (fun o event => event.Allowed o) Outline.none events

/-- How far everybody is after a run. -/
def outlineAfter (events : List ClientEvent) : Outline :=
  exec ClientEvent.next Outline.none events

/-- **Runs.**  No assertion fails, and the invariant holds afterwards. -/
theorem listened_inv (comparator : DocumentComparator κ) (hquery : WellFormed query)
    {events : List ClientEvent} (hevents : AllowedRun events) :
    ∃ client, listened comparator query events = .ok client ∧
      Inv query client (outlineAfter events) := by
  refine exec_halting_simulates ?_ inv_fresh
    (show Along ClientEvent.next (fun o event => event.Allowed o) Outline.none events
      from hevents)
  intro client o event h hevent
  exact step_ok hquery h hevent

theorem Inv.serves_of_mem {client : Client comparator} {o : Outline}
    (h : Inv query client o) {l : QueryListener comparator} (hl : l ∈ client.listeners) :
    ∃ view snapshot, Serves query o.progress o.remoteKeys client view snapshot := by
  refine h.serves ?_
  rw [← h.count]
  exact (List.length_pos_of_mem hl).ne'

theorem Told.informed {view : View comparator} {onlineState : OnlineState}
    {l : QueryListener comparator} (h : Told view onlineState l) (hevents : l.events ≠ []) :
    Informed view l := by
  cases hraised : l.raisedInitialEvent with
  | true => exact h.told hraised
  | false => exact absurd (h.untold hraised).1 hevents

theorem Told.quiet {view : View comparator} {onlineState : OnlineState}
    {l : QueryListener comparator} (h : Told view onlineState l) (hevents : l.events = []) :
    Quiet view onlineState l := by
  cases hraised : l.raisedInitialEvent with
  | false => exact (h.untold hraised).2
  | true =>
      obtain ⟨s, hlast, -⟩ := (h.told hraised).last
      rw [hevents] at hlast
      cases hlast

/-- The documents that the local store has and that match. -/
def Results (query : Query) (store : LocalStore) (results : DocumentSet comparator) : Prop :=
  ∀ key, ∃ doc, store.getDocument key = .ok doc ∧
    results.getDocument key = doc.bind fun doc => matching query ⟨key, doc⟩

theorem exists_results (comparator : DocumentComparator κ) (hquery : WellFormed query)
    {store : LocalStore} {s : PendingBatches} (h : store.mutationQueue.Represents s) :
    ∃ results : DocumentSet comparator, Results query store results ∧
      ∀ key, results.getDocument key = resultOf query store s key := by
  obtain ⟨docs, -, hall⟩ := covers_executeFullCollectionScan h hquery
  obtain ⟨results, hover⟩ := (DocumentSet.empty : DocumentSet comparator).exists_overlays
    (pairwise_rows docs) fun e _ d (hd : matching query e = some d) => key_of_matching hd
  have hget : ∀ key, results.getDocument key = resultOf query store s key := by
    intro key
    by_cases hentry : ∃ e ∈ docs.rows, e.key = key
    · obtain ⟨e, he, rfl⟩ := hentry
      rw [hover.of_mem e he, hall.of_mem he]
    · have hnone : ∀ e ∈ docs.rows, e.key ≠ key := fun e he heq => hentry ⟨e, he, heq⟩
      rw [hover.of_not_mem key hnone, hall.of_not_mem hnone]
      rfl
  exact ⟨results, fun key => ⟨store.view s key, getDocument_ok h key, hget key⟩, hget⟩

/-- As the backend sends it, the clue is found. -/
def clueFound : KeyedDocument := ⟨clueKey "Clue1", clueDocument false 1 2⟩

/-- The first clue that is found is listened to, with all metadata. -/
def listenToAll : ClientEvent := .listen ⟨true, true, false⟩

/-- The backend says that the clue is in the target, and has sent everything. -/
def clueInTarget : ClientEvent :=
  .snapshot ⟨2, [clueFound]⟩ ⟨true, true, {clueKey "Clue1"}, ∅, ∅⟩

/-- The first clue that is found is listened to while `findClue` happens; then the
backend has the clue in the target, and the connection goes. -/
def huntDay : List ClientEvent :=
  listenToAll :: findClue.map .store ++ [clueInTarget, .online .offline]

theorem wellFormed_firstUnlocked : WellFormed firstUnlocked := Or.inl rfl

theorem allowed_clueInTarget {o : Outline}
    (hlast : o.progress.lastRemoteSnapshotVersion ≤ 2) : clueInTarget.Allowed o :=
  ⟨⟨fun h => absurd h (by decide), fun _ => hlast, List.pairwise_singleton _ _⟩,
    fun _ => Finset.empty_subset _⟩

theorem allowed_huntDay : AllowedRun huntDay := by
  obtain ⟨hsnapshot, hwrite, hacknowledge, hrejected, -⟩ := allowed_findClue
  exact ⟨fun _ => rfl, hsnapshot, hwrite, hacknowledge, hrejected,
    allowed_clueInTarget (by decide), trivial, trivial⟩

/-- **Agreement.**  In every run each listener that was told anything was last handed
what the view shows of the documents that match.  If none of these waits for the
backend, that is their data, in order and up to the limit. -/
theorem listener_agrees (comparator : DocumentComparator κ) (hquery : WellFormed query)
    {events : List ClientEvent} (hevents : AllowedRun events) :
    ∃ (client : Client comparator) (results : DocumentSet comparator),
      listened comparator query events = .ok client ∧
      client.listeners.length = (outlineAfter events).listening ∧
      Results query client.store results ∧
      ∀ l ∈ client.listeners, l.events ≠ [] →
        ∃ (s : ViewSnapshot comparator) (view : View comparator),
          l.events.getLast? = some s ∧ client.view = some view ∧
          s.documents.contents = view.documentSet.contents ∧
          Shows query.limit results.getDocument view.documentSet ∧
          ((∀ d ∈ results.documents, d.hasCommittedMutations = false) →
            s.documents.contents = limitTo query.limit results.contents) := by
  obtain ⟨client, hrun, hinv⟩ := listened_inv comparator hquery hevents
  obtain ⟨results, hresults, hget⟩ := exists_results comparator hquery hinv.store.queue
  refine ⟨client, results, hrun, hinv.count, hresults, ?_⟩
  intro l hl htold
  obtain ⟨view, snapshot, hserves⟩ := hinv.serves_of_mem hl
  obtain ⟨s, hlast, hdata, -⟩ := ((hserves.told l hl).informed htold).last
  have hshows : Shows query.limit results.getDocument view.documentSet := by
    rw [funext hget]
    exact hserves.sound.shows
  refine ⟨s, view, hlast, hserves.hasView, hdata.contents_eq, hshows, fun hsettled => ?_⟩
  rw [hdata.contents_eq]
  exact hshows.contents_eq (fun _ => rfl) hsettled

/-- With an empty queue the results are in the cache. -/
theorem Results.exists_row {store : LocalStore} {s : PendingBatches}
    (h : store.mutationQueue.Represents s) (hempty : s.batches = [])
    {results : DocumentSet comparator} (hresults : Results query store results) {d : Document}
    (hd : d ∈ results.documents) :
    ∃ e ∈ store.remoteDocumentCache.documents.rows, matching query e = some d := by
  obtain ⟨doc, hdoc, hget⟩ := hresults d.key
  rw [getDocument_ok h, LocalStore.view, hempty, List.foldl_nil] at hdoc
  cases hdoc
  rw [results.getDocument_of_mem hd] at hget
  obtain ⟨doc, hcached, hmatch⟩ := Option.bind_eq_some_iff.mp hget.symm
  exact ⟨_, get_eq_some_iff.mp hcached, hmatch⟩

/-- The listener was handed something, and no document waits for the backend. -/
theorem listener_agrees_huntDay : ∃ (client : Client byNumber)
    (results : DocumentSet byNumber) (l : QueryListener byNumber)
    (s : ViewSnapshot byNumber),
    listened byNumber firstUnlocked huntDay = .ok client ∧
    Results firstUnlocked client.store results ∧
    l ∈ client.listeners ∧ l.events.getLast? = some s ∧
    s.documents.contents = limitTo (some ⟨.first, 1⟩) results.contents := by
  obtain ⟨client, results, hrun, -, hresults, htold⟩ :=
    listener_agrees byNumber wellFormed_firstUnlocked allowed_huntDay
  obtain ⟨client', hrun', hinv⟩ :=
    listened_inv byNumber wellFormed_firstUnlocked allowed_huntDay
  cases hrun'.symm.trans hrun
  have hevaluated : ((listened byNumber firstUnlocked huntDay).toOption.any fun client =>
      (client.listeners.any fun l => !l.events.isEmpty) &&
        client.store.remoteDocumentCache.documents.rows.all fun e =>
          (matching firstUnlocked e).all fun d => !d.hasCommittedMutations) = true := by
    decide +kernel
  rw [hrun, Except.toOption, Option.any_some, Bool.and_eq_true] at hevaluated
  obtain ⟨hlistener, hrows⟩ := hevaluated
  obtain ⟨l, hl, hevents⟩ := List.any_eq_true.mp hlistener
  have hne : l.events ≠ [] := by simpa using hevents
  have hconfirmed : ∀ d ∈ results.documents, d.hasCommittedMutations = false := by
    intro d hd
    obtain ⟨e, he, hmatch⟩ := hresults.exists_row hinv.store.queue rfl hd
    have hrow := List.all_eq_true.mp hrows e he
    rwa [hmatch, Option.all_some, Bool.not_eq_true'] at hrow
  obtain ⟨s, -, hlast, -, -, -, hcontents⟩ := htold l hl hne
  exact ⟨client, results, l, s, hrun, hresults, hl, hlast, hcontents hconfirmed⟩

/-- **Changes.**  In every run, the changes of all snapshots a listener was handed,
made one after the other, give the keys and the data of the documents it was last
handed, and these documents themselves if it asks for changes of their metadata. -/
theorem replay_agrees (comparator : DocumentComparator κ) (hquery : WellFormed query)
    {events : List ClientEvent} (hevents : AllowedRun events) :
    ∃ client, listened comparator query events = .ok client ∧
      client.listeners.length = (outlineAfter events).listening ∧
      ∀ l ∈ client.listeners, ∀ s, l.events.getLast? = some s →
        ((l.events.flatMap fun s => s.documentChanges).foldl replayOne
          (.empty : DocumentSet comparator)).contents = s.documents.contents ∧
        (l.options.includeDocumentMetadataChanges = true →
          (l.events.flatMap fun s => s.documentChanges).foldl replayOne .empty =
            s.documents) := by
  obtain ⟨client, hrun, hinv⟩ := listened_inv comparator hquery hevents
  refine ⟨client, hrun, hinv.count, ?_⟩
  intro l hl s hs
  obtain ⟨view, snapshot, hserves⟩ := hinv.serves_of_mem hl
  have hinformed := (hserves.told l hl).informed (List.ne_nil_of_mem (List.mem_of_getLast? hs))
  obtain ⟨s', hlast, hdata, hfull, -⟩ := hinformed.last
  cases hlast.symm.trans hs
  exact ⟨hinformed.replay.contents_eq.trans hdata.contents_eq.symm, fun hinclude =>
    (hinformed.replayAll hinclude).trans (hfull hinclude).symm⟩

/-- The listener was handed something, and asks for metadata. -/
theorem replay_agrees_huntDay : ∃ (client : Client byNumber) (l : QueryListener byNumber)
    (s : ViewSnapshot byNumber),
    listened byNumber firstUnlocked huntDay = .ok client ∧
    l ∈ client.listeners ∧ l.events.getLast? = some s ∧
    (l.events.flatMap fun s => s.documentChanges).foldl replayOne .empty = s.documents := by
  obtain ⟨client, hrun, -, htold⟩ :=
    replay_agrees byNumber wellFormed_firstUnlocked allowed_huntDay
  have hevaluated : ((listened byNumber firstUnlocked huntDay).toOption.any fun client =>
      client.listeners.any fun l => l.events.getLast?.isSome &&
        l.options.includeDocumentMetadataChanges) = true := by decide +kernel
  rw [hrun] at hevaluated
  obtain ⟨l, hl, hasked⟩ := List.any_eq_true.mp hevaluated
  rw [Bool.and_eq_true] at hasked
  obtain ⟨s, hs⟩ := Option.isSome_iff_exists.mp hasked.1
  exact ⟨client, l, s, hrun, hl, hs, (htold l hl s hs).2 hasked.2⟩

/-- **Confirmation.**  In every run, where a listener that asks for metadata was last
handed a snapshot that is not from the cache, each of its documents is one that the
backend has said to be in the target since the first listener came, or has local
mutations. -/
theorem confirmed_run (comparator : DocumentComparator κ) (hquery : WellFormed query)
    {events : List ClientEvent} (hevents : AllowedRun events) :
    ∃ client, listened comparator query events = .ok client ∧
      client.listeners.length = (outlineAfter events).listening ∧
      ∀ l ∈ client.listeners, l.options.includeQueryMetadataChanges = true →
        l.options.includeDocumentMetadataChanges = true →
        ∀ s, l.events.getLast? = some s → s.fromCache = false →
          ∀ d ∈ s.documents.documents, d.key ∈ (outlineAfter events).remoteKeys ∨
            d.hasLocalMutations = true := by
  obtain ⟨client, hrun, hinv⟩ := listened_inv comparator hquery hevents
  refine ⟨client, hrun, hinv.count, ?_⟩
  intro l hl hqueryMetadata hdocument s hs hsynced d hd
  obtain ⟨view, snapshot, hserves⟩ := hinv.serves_of_mem hl
  have hinformed := (hserves.told l hl).informed (List.ne_nil_of_mem (List.mem_of_getLast? hs))
  obtain ⟨s', hlast, -, hfull, hcache⟩ := hinformed.last
  cases hlast.symm.trans hs
  rw [hfull hdocument] at hd
  rw [hcache hqueryMetadata, decide_eq_false_iff_not, not_not] at hsynced
  rw [← hserves.remote]
  exact hserves.sound.confirmed hsynced d hd

/-- The clue is shown as confirmed. -/
theorem confirmed_run_clueInTarget : ∃ (client : Client byNumber)
    (l : QueryListener byNumber) (s : ViewSnapshot byNumber),
    listened byNumber firstUnlocked [listenToAll, clueInTarget] = .ok client ∧
    l ∈ client.listeners ∧ l.events.getLast? = some s ∧ s.fromCache = false ∧
    s.documents.documents ≠ [] ∧
    ∀ d ∈ s.documents.documents,
      d.key ∈ (outlineAfter [listenToAll, clueInTarget]).remoteKeys ∨
        d.hasLocalMutations = true := by
  obtain ⟨client, hrun, -, hconfirmed⟩ := confirmed_run byNumber wellFormed_firstUnlocked
    (show AllowedRun [listenToAll, clueInTarget] from
      ⟨fun _ => rfl, allowed_clueInTarget (by decide), trivial⟩)
  have hevaluated : ((listened byNumber firstUnlocked
      [listenToAll, clueInTarget]).toOption.any fun client => client.listeners.any fun l =>
        l.options.includeQueryMetadataChanges && l.options.includeDocumentMetadataChanges &&
          l.events.getLast?.any fun s => !s.fromCache && !s.documents.documents.isEmpty) =
      true := by decide +kernel
  rw [hrun] at hevaluated
  obtain ⟨l, hl, hasked⟩ := List.any_eq_true.mp hevaluated
  rw [Bool.and_eq_true, Bool.and_eq_true] at hasked
  obtain ⟨⟨hqueryMetadata, hdocument⟩, hevents⟩ := hasked
  obtain ⟨s, hs, hshown⟩ := (Option.any_eq_true _ _).mp hevents
  rw [Bool.and_eq_true, Bool.not_eq_true', Bool.not_eq_true'] at hshown
  refine ⟨client, l, s, hrun, hl, hs, hshown.1, ?_,
    hconfirmed l hl hqueryMetadata hdocument s hs hshown.1⟩
  simpa using hshown.2

end Runs

end ValentinesDay.Ports.QueryListeners
