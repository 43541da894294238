import ValentinesDay.Ports.QueryListeners

/-!
# Steps of a client with listeners

What the callers keep to is `ClientEvent.Allowed`.  Writes are those of the app, and
the local store is given what it expects (`StoreEvent.Allowed`).  The documents that
a target change calls modified are in the target.  The target of the query is new
to the client when a first listener comes; so the first results are those of the
plain scan, and what the view takes to be in the target is what the backend has
said since.

## Main results

* `step_ok` — no assertion of views, listeners and event manager fails at an allowed
  event, and the invariant `Inv` is kept: the view shows the results of the local
  store, and every listener has been told what it needs.
-/

namespace ValentinesDay.Ports.QueryListeners

open ValentinesDay.Ports.Firestore
open ValentinesDay.Ports.Mutations
open ValentinesDay.Ports.MutationQueue
open ValentinesDay.Ports.Queries
open ValentinesDay.Ports.LocalDocuments
open ValentinesDay.Ports.QueryEngine
open ValentinesDay.Ports.DocumentSets
open ValentinesDay.Ports.QueryView
open ValentinesDay.Ports.StoreChanges
open ValentinesDay.Verified.Fallible

universe u

variable {κ : Type u} [LinearOrder κ] {comparator : DocumentComparator κ}

/-! ## Results of the query -/

section Results

variable {query : Query} {store : LocalStore} {s : PendingBatches}

/-- A query of a collection, or of one document. -/
def WellFormed (query : Query) : Prop :=
  query.path.length % 2 = 1 ∨ query.isDocumentQuery

theorem bind_existing (query : Query) (key : DocumentKey) (doc : Option MaybeDocument) :
    ((existing doc).bind fun d => matching query ⟨key, d⟩) =
      doc.bind fun d => matching query ⟨key, d⟩ := by
  rcases doc with _ | doc
  · rfl
  · cases doc <;> rfl

theorem covers_of_reported {changes : DocumentMap}
    {before after : DocumentKey → Option MaybeDocument} (h : Reported changes before after)
    (query : Query) :
    Covers query changes (fun key => (before key).bind fun doc => matching query ⟨key, doc⟩)
      (fun key => (after key).bind fun doc => matching query ⟨key, doc⟩) := by
  intro key
  show ((after key).bind fun doc => matching query ⟨key, doc⟩) = _
  rw [← bind_existing, h key]
  cases changes.find key with
  | none => exact bind_existing query key (before key)
  | some doc => exact bind_existing query key (some doc)

theorem matching_eq_none_of_path {key : DocumentKey} (h : query.matchesPath key = false)
    (doc : MaybeDocument) : matching query ⟨key, doc⟩ = none := by
  refine Option.filter_eq_none_iff.mpr fun d hd hmatch => ?_
  have hpath := Query.path_of_matchesDoc hmatch
  rw [key_of_toDocument hd, h] at hpath
  cases hpath

theorem getDocumentsMatchingDocumentQuery_ok (h : store.mutationQueue.Represents s)
    (path : DocumentKey) :
    ∃ docs, getDocumentsMatchingDocumentQuery store path = .ok docs ∧
      ∀ key, DocumentMap.find docs key =
        if key = path then existing (store.view s path) else none := by
  rw [getDocumentsMatchingDocumentQuery, getDocument_ok h]
  refine ⟨_, rfl, fun key => ?_⟩
  cases store.view s path with
  | none => exact (ite_self none).symm
  | some doc =>
      cases hexists : doc.isDocument with
      | true => simp [hexists, find_put, existing, Option.filter_some]
      | false => simp [hexists, existing, Option.filter_some]

/-- **Results.**  The plain scan has all documents that match. -/
theorem covers_executeFullCollectionScan (h : store.mutationQueue.Represents s)
    (hquery : WellFormed query) :
    ∃ docs, executeFullCollectionScan store query = .ok docs ∧
      Covers query docs (fun _ => none) (resultOf query store s) := by
  by_cases hdoc : query.isDocumentQuery
  · have heven := Query.even_of_isDocumentQuery hdoc
    obtain ⟨docs, hdocs, hfind⟩ :=
      getDocumentsMatchingDocumentQuery_ok h ⟨query.path, heven⟩
    refine ⟨docs, ?_, fun key => ?_⟩
    · rw [executeFullCollectionScan, documentsMatchingQuery, dif_pos hdoc, hdocs]
    · rw [hfind]
      by_cases hkey : key = ⟨query.path, heven⟩
      · rw [if_pos hkey, ← hkey]
        show (store.view s key).bind (fun doc => matching query ⟨key, doc⟩) = _
        rw [← bind_existing]
        cases existing (store.view s key) <;> rfl
      · rw [if_neg hkey]
        have hpath : query.matchesPath key = false := by
          rw [Query.matchesPath, if_pos heven]
          exact decide_eq_false fun h => hkey (documentKey_ext h.symm)
        show (store.view s key).bind (fun doc => matching query ⟨key, doc⟩) = none
        exact Option.bind_eq_none_iff.mpr fun doc _ => matching_eq_none_of_path hpath doc
  · obtain ⟨docs, hdocs, hfind⟩ := fullScan h (hquery.resolve_right hdoc)
    refine ⟨docs, hdocs, fun key => ?_⟩
    rw [hfind, resultOf]
    cases store.view s key with
    | none => rfl
    | some doc =>
        rw [Option.filter_some]
        cases hmatch : matchesEntry query ⟨key, doc⟩ with
        | true => rfl
        | false =>
            cases doc with
            | document data version state =>
                have hno : query.matchesDoc key data = false := hmatch
                simp [matching, toDocument, Option.filter_some, hno]
            | noDocument version committed => rfl
            | unknownDocument version => rfl

end Results

/-! ## What the callers keep to, and the invariant -/

/-- How far the store is, how many listeners there are, whether the client knows the
target, and the documents that the backend has said to be in it since the first
listener came. -/
structure Outline where
  progress : Progress
  listening : Nat
  known : Bool
  remoteKeys : Finset DocumentKey

/-- Nothing has happened. -/
def Outline.none : Outline := ⟨Progress.none, 0, false, ∅⟩

/-- What the callers keep to: `StoreEvent.Allowed` for the store, documents called
modified are in the target, the target is new when a first listener comes, and a
query is refused only while it is listened to. -/
def ClientEvent.Allowed (o : Outline) : ClientEvent → Prop
  | .store event => event.Allowed o.progress
  | .snapshot event targetChange =>
      (StoreEvent.snapshot event).Allowed o.progress ∧
        (o.listening ≠ 0 →
          targetChange.modifiedDocuments ⊆ o.remoteKeys ∪ targetChange.addedDocuments)
  | .listen _ => o.listening = 0 → o.known = false
  | .rejectListen => o.listening ≠ 0
  | _ => True

/-- How far everybody is after an event. -/
def ClientEvent.next (o : Outline) : ClientEvent → Outline
  | .store event => { o with progress := event.next o.progress }
  | .snapshot event targetChange =>
      { o with
        progress := (StoreEvent.snapshot event).next o.progress
        remoteKeys := syncedAfter o.remoteKeys (some targetChange) }
  | .online _ => o
  | .listen _ =>
      { o with
        listening := o.listening + 1
        known := true
        remoteKeys := if o.listening = 0 then ∅ else o.remoteKeys }
  | .unlisten index =>
      { o with listening := if index < o.listening then o.listening - 1 else o.listening }
  | .rejectListen => { o with listening := 0 }
  | .forget => { o with known := if o.listening = 0 then false else o.known }

/-- The view and the listeners are as they should be. -/
structure Serves (query : Query) (p : Progress) (remoteKeys : Finset DocumentKey)
    (client : Client comparator) (view : View comparator)
    (snapshot : ViewSnapshot comparator) : Prop where
  hasView : client.view = some view
  hasSnapshot : client.viewSnapshot = some snapshot
  hasTarget : client.target.isSome
  sound : Sound query.limit (resultOf query client.store p.pending) view
  current : Current view snapshot
  changed : snapshot.documentChanges ≠ [] ∨ snapshot.syncStateChanged = true
  remote : view.syncedDocuments = remoteKeys
  told : ∀ l ∈ client.listeners, Told view client.onlineState l

/-- The client is as the outline tells. -/
structure Inv (query : Query) (client : Client comparator) (o : Outline) : Prop where
  store : At client.store o.progress
  count : client.listeners.length = o.listening
  idle : o.listening = 0 → client.view = none ∧ client.viewSnapshot = none
  known : o.listening ≠ 0 → o.known = true
  unknown : o.known = false → client.target = none
  serves : o.listening ≠ 0 → ∃ view snapshot,
    Serves query o.progress o.remoteKeys client view snapshot

section Steps

variable {query : Query} {client : Client comparator}
  {view view' : View comparator}

/-- Other listeners may be served, and another state of the connection known. -/
theorem Serves.with_listeners {p : Progress} {remoteKeys : Finset DocumentKey}
    {snapshot : ViewSnapshot comparator}
    (h : Serves query p remoteKeys client view snapshot)
    {listeners : List (QueryListener comparator)} {onlineState : OnlineState}
    (htold : ∀ l ∈ listeners, Told view onlineState l) :
    Serves query p remoteKeys { client with
      listeners := listeners
      onlineState := onlineState } view snapshot :=
  { hasView := h.hasView
    hasSnapshot := h.hasSnapshot
    hasTarget := h.hasTarget
    sound := h.sound
    current := h.current
    changed := h.changed
    remote := h.remote
    told := htold }

/-- A client that serves some listeners knows the target. -/
theorem Inv.of_serves {o : Outline} (hstore : At client.store o.progress)
    (hcount : client.listeners.length = o.listening) (hlistening : o.listening ≠ 0)
    (hknown : o.known = true) {snapshot : ViewSnapshot comparator}
    (hserves : Serves query o.progress o.remoteKeys client view snapshot) :
    Inv query client o :=
  { store := hstore
    count := hcount
    idle := fun hzero => absurd hzero hlistening
    known := fun _ => hknown
    unknown := fun hfalse => absurd (hknown.symm.trans hfalse) Bool.true_eq_false.mp
    serves := fun _ => ⟨view, snapshot, hserves⟩ }

/-- A client without listeners has no view. -/
theorem Inv.of_idle {o : Outline} (hstore : At client.store o.progress)
    (hnone : client.listeners = []) (hzero : o.listening = 0)
    (hview : client.view = none) (hsnapshot : client.viewSnapshot = none)
    (hunknown : o.known = false → client.target = none) : Inv query client o :=
  { store := hstore
    count := by rw [hnone, hzero, List.length_nil]
    idle := fun _ => ⟨hview, hsnapshot⟩
    known := fun hne => absurd hzero hne
    unknown := hunknown
    serves := fun hne => absurd hzero hne }

theorem Inv.listeners_eq_nil {o : Outline} (h : Inv query client o)
    (hzero : o.listening = 0) : client.listeners = [] :=
  List.length_eq_zero_iff.mp (h.count.trans hzero)

/-- The listeners hear of a step of the view. -/
theorem onViewSnapshots_ok (client : Client comparator)
    {snapshot : Option (ViewSnapshot comparator)}
    (hemits : Emits view view' snapshot) (hmutated : Mutated view.documentSet view.mutatedKeys)
    (hmutated' : Mutated view'.documentSet view'.mutatedKeys)
    (hsnapshot : ∃ s, client.viewSnapshot = some s ∧ Current view s ∧
      (s.documentChanges ≠ [] ∨ s.syncStateChanged = true))
    (htold : ∀ l ∈ client.listeners, Told view client.onlineState l) :
    ∃ listeners s, client.onViewSnapshots snapshot = .ok { client with
        listeners := listeners
        viewSnapshot := some s } ∧
      listeners.length = client.listeners.length ∧ Current view' s ∧
      (s.documentChanges ≠ [] ∨ s.syncStateChanged = true) ∧
      ∀ l ∈ listeners, Told view' client.onlineState l := by
  cases snapshot with
  | none =>
      obtain ⟨hdocs, hstate⟩ := hemits
      have hkeys : view'.mutatedKeys = view.mutatedKeys :=
        hmutated'.unique (hdocs.symm ▸ hmutated)
      obtain ⟨s, hs, hcurrent, hchanged⟩ := hsnapshot
      refine ⟨client.listeners, s, ?_, rfl, ?_, hchanged, ?_⟩
      · rw [← hs]
        rfl
      · exact ⟨hdocs ▸ hcurrent.documents, hkeys ▸ hcurrent.mutatedKeys,
          hstate ▸ hcurrent.fromCache⟩
      · exact fun l hl => (htold l hl).congr hdocs hkeys hstate
  | some snapshot =>
      obtain ⟨told, hrun, hlength, hall⟩ := exists_mapM
        (f := fun (l : QueryListener comparator) => l.onViewSnapshot snapshot)
        fun l hl => onViewSnapshot_ok (htold l hl) hemits
      refine ⟨told.map (·.1), snapshot, ?_, ?_, Reports.current hemits, hemits.changed, ?_⟩
      · rw [Client.onViewSnapshots, hrun]
        rfl
      · rw [List.length_map, hlength]
      · intro l hl
        obtain ⟨r, hr, rfl⟩ := List.mem_map.mp hl
        exact hall r hr

theorem notifyLocalViewChanges_ok (h : client.target.isSome)
    (snapshot : Option (ViewSnapshot comparator)) :
    ∃ target, client.notifyLocalViewChanges snapshot =
      .ok { client with target := some target } := by
  obtain ⟨target, htarget⟩ := Option.isSome_iff_exists.mp h
  unfold Client.notifyLocalViewChanges
  rw [htarget]
  split
  · exact ⟨_, rfl⟩
  · exact ⟨target, by rw [← htarget]⟩

/-- **Changes of the store.** -/
theorem emitNewSnapshots_ok (client : Client comparator) (hquery : WellFormed query)
    {p : Progress} (hstore : At client.store p) {result : DocumentKey → Option Document}
    {snapshot : ViewSnapshot comparator}
    (hview : client.view = some view) (hviewSnapshot : client.viewSnapshot = some snapshot)
    (htarget : client.target.isSome)
    (hsound : Sound query.limit result view) (hcurrent : Current view snapshot)
    (hchanged : snapshot.documentChanges ≠ [] ∨ snapshot.syncStateChanged = true)
    (htold : ∀ l ∈ client.listeners, Told view client.onlineState l)
    {changes : DocumentMap}
    (hcovers : Covers query changes result (resultOf query client.store p.pending))
    {targetChange : Option TargetChange} (hknown : Known view targetChange) :
    ∃ client' view' snapshot', client.emitNewSnapshots query changes targetChange =
        .ok client' ∧
      client'.store = client.store ∧
      client'.listeners.length = client.listeners.length ∧
      Serves query p (syncedAfter view.syncedDocuments targetChange) client' view'
        snapshot' := by
  obtain ⟨documents, hdocuments, hall⟩ :=
    covers_executeFullCollectionScan hstore.queue hquery
  obtain ⟨docChanges, hcompute, htracks, hfresh, hshows⟩ :=
    viewDocChanges_ok hsound.mutated hsound.shows hcovers hdocuments hall
  obtain ⟨view', change, happly, hsound', hemits, hsynced, -⟩ :=
    applyChanges_ok htracks hfresh hshows hknown
  obtain ⟨listeners, s, hrun, hlength, hcurrent', hchanged', htold'⟩ :=
    onViewSnapshots_ok { client with view := some view' } hemits hsound.mutated
      hsound'.mutated ⟨snapshot, hviewSnapshot, hcurrent, hchanged⟩ htold
  let client₁ : Client comparator := { client with
    view := some view'
    listeners := listeners
    viewSnapshot := some s }
  obtain ⟨target, hnotify⟩ := notifyLocalViewChanges_ok
    (show client₁.target.isSome from htarget) change.snapshot
  refine ⟨{ client₁ with target := some target }, view', s, ?_, rfl, hlength,
    { hasView := rfl
      hasSnapshot := rfl
      hasTarget := rfl
      sound := hsound'
      current := hcurrent'
      changed := hchanged'
      remote := hsynced
      told := htold' }⟩
  rw [Client.emitNewSnapshots, hview]
  simp only [hcompute, happly, Except.bind]
  rw [hrun]
  exact hnotify

/-- The first results of a new target are those of the plain scan. -/
theorem getDocumentsMatchingQuery_new (comparator : DocumentComparator κ)
    (store : LocalStore) (query : Query) (remoteKeys : Finset DocumentKey) :
    getDocumentsMatchingQuery comparator store query 0 remoteKeys =
      executeFullCollectionScan store query := by
  rw [getDocumentsMatchingQuery, if_pos rfl, ite_self]

/-- **The first listener.** -/
theorem listenToQuery_ok (client : Client comparator) (hquery : WellFormed query)
    {p : Progress} (hstore : At client.store p) (hview : client.view = none)
    (htarget : client.target = none)
    {listener : QueryListener comparator} (hlisteners : client.listeners = [listener])
    (huntold : listener.raisedInitialEvent = false) (hevents : listener.events = [])
    (honline : listener.onlineState = client.onlineState) :
    ∃ client' view' snapshot', client.listenToQuery query = .ok client' ∧
      client'.store = client.store ∧ client'.listeners.length = 1 ∧
      Serves query p ∅ client' view' snapshot' := by
  obtain ⟨documents, hdocuments, hall⟩ :=
    covers_executeFullCollectionScan hstore.queue hquery
  obtain ⟨docChanges, hcompute, htracks, hfresh, hshows⟩ := opened_ok comparator ∅ hall
  obtain ⟨view', change, happly, hsound, hemits, hsynced, -⟩ :=
    applyChanges_ok htracks hfresh hshows
      (show Known (View.opened ∅) none from fun _ h => absurd h (Option.not_mem_none _))
  cases hsnapshot : change.snapshot with
  | none =>
      -- the state of a new view always changes
      rw [hsnapshot] at hemits
      exact absurd hemits.2 hsound.started
  | some snapshot =>
      rw [hsnapshot] at hemits
      have hcurrent := Reports.current hemits
      obtain ⟨r, hr, htold⟩ := onViewSnapshot_first huntold hevents hcurrent hemits.changed
      let client' : Client comparator := { client with
        target := some .new
        view := some view'
        listeners := [r.1]
        viewSnapshot := some snapshot }
      refine ⟨client', view', snapshot, ?_, rfl, rfl,
        { hasView := rfl
          hasSnapshot := rfl
          hasTarget := rfl
          sound := hsound
          current := hcurrent
          changed := hemits.changed
          remote := hsynced
          told := fun l hl => by
            cases List.mem_singleton.mp hl
            exact honline ▸ htold }⟩
      rw [Client.listenToQuery, hview]
      simp only [htarget, Option.getD_none, TargetData.new, getDocumentsMatchingQuery_new,
        hdocuments, hcompute, happly, hsnapshot, Except.bind, Client.onViewSnapshots,
        hlisteners, List.mapM_cons, List.mapM_nil, hr]
      rfl

/-- A listener to be: it has been told the state of the connection. -/
theorem onOnlineStateChanged_create (options : ListenOptions) (onlineState : OnlineState) :
    (QueryListener.create options : QueryListener comparator).onOnlineStateChanged
        onlineState =
      .ok ({ QueryListener.create options with onlineState := onlineState }, false) := rfl

/-- The first listener opens the view. -/
theorem addQueryListener_first (hquery : WellFormed query) {o : Outline}
    (h : Inv query client o) (options : ListenOptions) (hfirst : o.listening = 0)
    (hnew : o.known = false) :
    ∃ client', client.addQueryListener query options = .ok client' ∧
      Inv query client' ((ClientEvent.listen options).next o) := by
  let listener : QueryListener comparator :=
    { QueryListener.create options with onlineState := client.onlineState }
  obtain ⟨hview, hsnapshot⟩ := h.idle hfirst
  obtain ⟨client', view', snapshot', hrun, hstore, hlength, hserves⟩ :=
    listenToQuery_ok { client with listeners := [listener] } hquery h.store hview
      (h.unknown hnew) rfl rfl rfl rfl
  have hserves' : Serves query o.progress ((ClientEvent.listen options).next o).remoteKeys
      client' view' snapshot' := by
    simpa only [ClientEvent.next, if_pos hfirst] using hserves
  have hcount : client'.listeners.length = o.listening + 1 := by rw [hlength, hfirst]
  refine ⟨client', ?_,
    Inv.of_serves (hstore ▸ h.store) hcount (Nat.succ_ne_zero _) rfl hserves'⟩
  rw [Client.addQueryListener, onOnlineStateChanged_create]
  simp only [Except.bind, hsnapshot, h.listeners_eq_nil hfirst, List.nil_append,
    decide_true, if_true, Bool.false_eq_true, if_false]
  exact hrun

/-- A later listener is told what the view shows. -/
theorem addQueryListener_more {o : Outline} (h : Inv query client o)
    (options : ListenOptions) (hlistening : o.listening ≠ 0) :
    ∃ client', client.addQueryListener query options = .ok client' ∧
      Inv query client' ((ClientEvent.listen options).next o) := by
  let listener : QueryListener comparator :=
    { QueryListener.create options with onlineState := client.onlineState }
  obtain ⟨view, snapshot, hserves⟩ := h.serves hlistening
  have hsome : client.listeners ≠ [] := by
    intro hnone
    rw [← h.count, hnone] at hlistening
    exact hlistening rfl
  obtain ⟨r, hr, htold⟩ := onViewSnapshot_first
    (show listener.raisedInitialEvent = false from rfl) rfl hserves.current hserves.changed
  let client' : Client comparator := { client with listeners := client.listeners ++ [r.1] }
  have hall : ∀ l ∈ client'.listeners, Told view client.onlineState l := by
    intro l hl
    rcases List.mem_append.mp hl with hold | hlast
    · exact hserves.told l hold
    · cases List.mem_singleton.mp hlast
      exact htold
  have hserves' : Serves query o.progress ((ClientEvent.listen options).next o).remoteKeys
      client' view snapshot := by
    simpa only [ClientEvent.next, if_neg hlistening] using hserves.with_listeners hall
  have hcount : client'.listeners.length = o.listening + 1 := by
    show (client.listeners ++ [r.1]).length = o.listening + 1
    rw [List.length_append, h.count, List.length_singleton]
  refine ⟨client', ?_, Inv.of_serves h.store hcount (Nat.succ_ne_zero _) rfl hserves'⟩
  rw [Client.addQueryListener, onOnlineStateChanged_create]
  simp only [Except.bind, hserves.hasSnapshot, hsome, decide_false, Bool.false_eq_true,
    if_false]
  rw [hr]
  show Except.ok _ = Except.ok client'
  rw [← hserves.hasSnapshot]

/-- Another listener, or the first. -/
theorem addQueryListener_ok (hquery : WellFormed query) {o : Outline}
    (h : Inv query client o) (options : ListenOptions)
    (hnew : o.listening = 0 → o.known = false) :
    ∃ client', client.addQueryListener query options = .ok client' ∧
      Inv query client' ((ClientEvent.listen options).next o) := by
  by_cases hfirst : o.listening = 0
  · exact addQueryListener_first hquery h options hfirst (hnew hfirst)
  · exact addQueryListener_more h options hfirst

/-- A listener goes, or the last. -/
theorem removeQueryListener_ok {o : Outline} (h : Inv query client o) (index : Nat) :
    ∃ client', client.removeQueryListener index = .ok client' ∧
      Inv query client' ((ClientEvent.unlisten index).next o) := by
  unfold Client.removeQueryListener
  by_cases hnone : client.listeners = []
  · have hzero : o.listening = 0 := by rw [← h.count, hnone]; rfl
    have hnext : (ClientEvent.unlisten index).next o = o := by
      rw [ClientEvent.next, if_neg (by omega)]
    rw [if_pos hnone, hnext]
    exact ⟨client, rfl, h⟩
  · have hlistening : o.listening ≠ 0 := by
      rw [← h.count]
      exact fun hzero => hnone (List.length_eq_zero_iff.mp hzero)
    obtain ⟨view, snapshot, hserves⟩ := h.serves hlistening
    have hcount : (client.listeners.eraseIdx index).length =
        ((ClientEvent.unlisten index).next o).listening := by
      rw [List.length_eraseIdx, h.count]
      rfl
    rw [if_neg hnone]
    by_cases hlast : client.listeners.eraseIdx index = []
    · rw [if_pos hlast, hserves.hasView]
      refine ⟨_, rfl, ?_⟩
      have hzero : ((ClientEvent.unlisten index).next o).listening = 0 := by
        rw [← hcount, hlast]
        rfl
      exact Inv.of_idle h.store rfl hzero rfl rfl h.unknown
    · rw [if_neg hlast]
      refine ⟨_, rfl, ?_⟩
      have hmore : ((ClientEvent.unlisten index).next o).listening ≠ 0 := fun hzero =>
        hlast (List.length_eq_zero_iff.mp (hcount.trans hzero))
      exact Inv.of_serves h.store hcount hmore (h.known hlistening)
        (hserves.with_listeners fun l hl => hserves.told l (List.mem_of_mem_eraseIdx hl))

/-- The listeners hear of the connection. -/
theorem tellOnlineState_ok {o : Outline} (h : Inv query client o)
    (onlineState : OnlineState) :
    ∃ client', client.tellOnlineState onlineState = .ok client' ∧
      Inv query client' o := by
  by_cases hzero : o.listening = 0
  · unfold Client.tellOnlineState
    rw [h.listeners_eq_nil hzero]
    exact ⟨_, rfl,
      Inv.of_idle h.store rfl hzero (h.idle hzero).1 (h.idle hzero).2 h.unknown⟩
  · obtain ⟨view, snapshot, hserves⟩ := h.serves hzero
    obtain ⟨told, hrun, hlength, hall⟩ := exists_mapM
      (f := fun (l : QueryListener comparator) => l.onOnlineStateChanged onlineState)
      fun l hl => onOnlineStateChanged_ok (hserves.told l hl) onlineState
    let client' : Client comparator := { client with
      listeners := told.map (·.1)
      onlineState := onlineState }
    have hcount : client'.listeners.length = o.listening := by
      show (told.map (·.1)).length = o.listening
      rw [List.length_map, hlength, h.count]
    have htold : ∀ l ∈ client'.listeners, Told view onlineState l := by
      intro l hl
      obtain ⟨r, hr, rfl⟩ := List.mem_map.mp hl
      exact hall r hr
    refine ⟨client', ?_,
      Inv.of_serves h.store hcount hzero (h.known hzero) (hserves.with_listeners htold)⟩
    rw [Client.tellOnlineState, hrun]
    rfl

theorem handleOnlineStateChange_ok {o : Outline} (h : Inv query client o)
    (onlineState : OnlineState) :
    ∃ client', client.handleOnlineStateChange onlineState = .ok client' ∧
      Inv query client' o := by
  unfold Client.handleOnlineStateChange
  by_cases hzero : o.listening = 0
  · rw [(h.idle hzero).1]
    exact tellOnlineState_ok h onlineState
  · obtain ⟨view, snapshot, hserves⟩ := h.serves hzero
    obtain ⟨view', change, happly, hsound, hemits, hsynced, hlimbo, -⟩ :=
      applyOnlineStateChange_ok hserves.sound onlineState
    obtain ⟨listeners, s, hrun, hlength, hcurrent, hchanged, htold⟩ :=
      onViewSnapshots_ok { client with view := some view' } hemits hserves.sound.mutated
        hsound.mutated ⟨snapshot, hserves.hasSnapshot, hserves.current, hserves.changed⟩
        hserves.told
    have hinv : Inv query { client with
        view := some view'
        listeners := listeners
        viewSnapshot := some s } o :=
      Inv.of_serves h.store (hlength.trans h.count) hzero (h.known hzero)
        { hasView := rfl
          hasSnapshot := rfl
          hasTarget := hserves.hasTarget
          sound := hsound
          current := hcurrent
          changed := hchanged
          remote := hsynced.trans hserves.remote
          told := htold }
    obtain ⟨client', htell, hinv'⟩ := tellOnlineState_ok hinv onlineState
    refine ⟨client', ?_, hinv'⟩
    rw [hserves.hasView]
    simp only [happly, hlimbo, Except.bind, ne_eq, not_true_eq_false, if_false, hrun]
    exact htell

/-- A change of the store, with what the backend says of the target. -/
theorem emit_inv (hquery : WellFormed query) {o : Outline} (h : Inv query client o)
    {store' : LocalStore} {p' : Progress} (hstore : At store' p') {changes : DocumentMap}
    (hreported : Reported changes (client.store.view o.progress.pending)
      (store'.view p'.pending)) {targetChange : Option TargetChange}
    (hknown : o.listening ≠ 0 → ∀ change ∈ targetChange,
      change.modifiedDocuments ⊆ o.remoteKeys ∪ change.addedDocuments)
    {target' : Option TargetData} (htarget : target'.isSome = client.target.isSome) :
    ∃ client', { client with store := store', target := target' }.emitNewSnapshots query
        changes targetChange = .ok client' ∧
      Inv query client'
        ⟨p', o.listening, o.known, syncedAfter o.remoteKeys targetChange⟩ := by
  have hunknown : o.known = false → target' = none := by
    intro hfalse
    rw [h.unknown hfalse] at htarget
    exact Option.not_isSome_iff_eq_none.mp (by rw [htarget]; exact Bool.false_ne_true)
  by_cases hzero : o.listening = 0
  · obtain ⟨hview, hsnapshot⟩ := h.idle hzero
    refine ⟨{ client with store := store', target := target' }, ?_,
      Inv.of_idle hstore (h.listeners_eq_nil hzero) hzero hview hsnapshot hunknown⟩
    rw [Client.emitNewSnapshots]
    simp only [hview]
  · obtain ⟨view, snapshot, hserves⟩ := h.serves hzero
    have hknown' : Known view targetChange := by
      intro change hchange
      rw [hserves.remote]
      exact hknown hzero change hchange
    obtain ⟨client', view', snapshot', hrun, hstore', hlength, hserves'⟩ :=
      emitNewSnapshots_ok { client with store := store', target := target' } hquery hstore
        hserves.hasView hserves.hasSnapshot (htarget.trans hserves.hasTarget) hserves.sound
        hserves.current hserves.changed hserves.told
        (covers_of_reported hreported query) hknown'
    exact ⟨client', hrun, Inv.of_serves (hstore' ▸ hstore) (hlength.trans h.count) hzero
      (h.known hzero) (hserves.remote ▸ hserves')⟩

/-- A target that is not listened to is forgotten. -/
theorem forget_inv {o : Outline} (h : Inv query client o) :
    Inv query (if client.view.isSome then client else { client with target := none })
      (ClientEvent.forget.next o) := by
  by_cases hzero : o.listening = 0
  · obtain ⟨hview, hsnapshot⟩ := h.idle hzero
    have hidle : ¬client.view.isSome = true := by simp [hview]
    rw [if_neg hidle]
    exact Inv.of_idle h.store (h.listeners_eq_nil hzero) hzero hview hsnapshot fun _ => rfl
  · obtain ⟨view, snapshot, hserves⟩ := h.serves hzero
    have hnext : ClientEvent.forget.next o = o := by
      rw [ClientEvent.next, if_neg hzero]
    rw [hserves.hasView, hnext]
    exact h

/-- **One step.** -/
theorem step_ok (hquery : WellFormed query) {o : Outline} (h : Inv query client o)
    {event : ClientEvent} (hevent : event.Allowed o) :
    ∃ client', client.step query event = .ok client' ∧ Inv query client' (event.next o) := by
  cases event with
  | store event =>
      obtain ⟨changes, store', hrun, hat, hreported⟩ := run_reported h.store hevent
      obtain ⟨client', hemit, hinv⟩ := emit_inv hquery h hat hreported
        (fun _ change hchange => absurd hchange (Option.not_mem_none change))
        (rfl : client.target.isSome = client.target.isSome)
      refine ⟨client', ?_, hinv⟩
      rw [Client.step, hrun]
      exact hemit
  | snapshot event targetChange =>
      obtain ⟨hallowed, hmodified⟩ := hevent
      obtain ⟨changes, store', hrun, hat, hreported⟩ := run_reported h.store hallowed
      have htarget : (if client.view.isSome then client.target.map fun target =>
          target.applyChange event.snapshotVersion targetChange
          else client.target).isSome = client.target.isSome := by
        split
        · exact Option.isSome_map
        · rfl
      obtain ⟨client', hemit, hinv⟩ := emit_inv hquery h hat hreported
        (show o.listening ≠ 0 → ∀ change ∈ some targetChange,
            change.modifiedDocuments ⊆ o.remoteKeys ∪ change.addedDocuments by
          intro hne change hchange
          cases hchange
          exact hmodified hne) htarget
      refine ⟨client', ?_, hinv⟩
      have hrun' : client.store.applyRemoteEvent event = .ok (changes, store') := hrun
      rw [Client.step, Client.applyRemoteEvent, hrun']
      exact hemit
  | online onlineState => exact handleOnlineStateChange_ok h onlineState
  | listen options => exact addQueryListener_ok hquery h options hevent
  | unlisten index => exact removeQueryListener_ok h index
  | rejectListen =>
      obtain ⟨view, snapshot, hserves⟩ := h.serves hevent
      let client' : Client comparator := { client with
        listeners := []
        viewSnapshot := none
        view := none }
      refine ⟨client', ?_, Inv.of_idle h.store rfl rfl rfl rfl h.unknown⟩
      rw [Client.step, Client.handleRejectedListen, hserves.hasView]
  | forget => exact ⟨_, rfl, forget_inv h⟩

end Steps

end ValentinesDay.Ports.QueryListeners
