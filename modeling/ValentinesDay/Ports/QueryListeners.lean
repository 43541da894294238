import ValentinesDay.Ports.QueryView
import ValentinesDay.Ports.StoreChanges

/-!
# Listeners of a query

The parts of the app that listen to a query share its view.  Each is handed
snapshots: the first when there is something to show or nothing more to wait
for, the others as they come, as far as its options ask for them.  The event
manager keeps the last snapshot of the view, from which a listener that comes
later is told.

The state below is of one query with its listeners, on top of the local store.
Queries do not affect each other: each has its own view, which reads the store
only, and no other query is of the same target.

## Main results

* `onViewSnapshot_first`, `onViewSnapshot_ok`, `onOnlineStateChanged_ok` — after a
  snapshot or a change of the connection each listener is as it should be (`Told`):
  it was last handed what the view shows, or has reason to wait.
-/

namespace ValentinesDay.Ports.QueryListeners

open ValentinesDay.Ports.Runtime
open ValentinesDay.Ports.Firestore
open ValentinesDay.Ports.Mutations
open ValentinesDay.Ports.MutationQueue
open ValentinesDay.Ports.Queries
open ValentinesDay.Ports.LocalDocuments
open ValentinesDay.Ports.QueryEngine
open ValentinesDay.Ports.DocumentSets
open ValentinesDay.Ports.QueryView
open ValentinesDay.Ports.StoreChanges
open ValentinesDay.Verified.OrderedTable

universe u

variable {κ : Type u} [LinearOrder κ] {comparator : DocumentComparator κ}

/-! ## One listener -/

/-- `ListenOptions`. -/
structure ListenOptions where
  includeQueryMetadataChanges : Bool
  includeDocumentMetadataChanges : Bool
  waitForSyncWhenOnline : Bool
  deriving DecidableEq, Repr

/-- `QueryListener`; `events` are the snapshots that the listener of the app was
handed. -/
structure QueryListener (comparator : DocumentComparator κ) where
  options : ListenOptions
  raisedInitialEvent : Bool
  onlineState : OnlineState
  snapshot : Option (ViewSnapshot comparator)
  events : List (ViewSnapshot comparator)

/-- `FromInitialDocuments`. -/
def fromInitialDocuments (documents : DocumentSet comparator)
    (mutatedKeys : Finset DocumentKey) (fromCache excludesMetadataChanges : Bool) :
    ViewSnapshot comparator where
  documents := documents
  oldDocuments := .empty
  documentChanges := documents.documents.map fun d => ⟨d, .added⟩
  mutatedKeys := mutatedKeys
  fromCache := fromCache
  syncStateChanged := true
  excludesMetadataChanges := excludesMetadataChanges

/-- The snapshot without the changes of metadata only. -/
def withoutMetadata (snapshot : ViewSnapshot comparator) : ViewSnapshot comparator :=
  { snapshot with
    documentChanges := snapshot.documentChanges.filter fun c => c.type ≠ .metadata
    excludesMetadataChanges := true }

namespace QueryListener

/-- A listener that has been told nothing. -/
def create (options : ListenOptions) : QueryListener comparator where
  options := options
  raisedInitialEvent := false
  onlineState := .unknown
  snapshot := none
  events := []

variable (listener : QueryListener comparator)

/-- `ShouldRaiseInitialEvent`. -/
def shouldRaiseInitialEvent (snapshot : ViewSnapshot comparator)
    (onlineState : OnlineState) : Except Crash Bool :=
  if listener.raisedInitialEvent then
    .error (.hardAssert ("Determining whether to raise initial event, but already had " ++
      "first event."))
  else if ¬snapshot.fromCache then .ok true
  else if listener.options.waitForSyncWhenOnline ∧ onlineState ≠ .offline then
    -- "Waiting for sync, but snapshot is not from cache." is excluded above
    .ok false
  else .ok (decide (snapshot.documents.documents ≠ [] ∨ onlineState = .offline))

/-- `RaiseInitialEvent`. -/
def raiseInitialEvent (snapshot : ViewSnapshot comparator) :
    Except Crash (QueryListener comparator) :=
  if listener.raisedInitialEvent then
    .error (.hardAssert "Trying to raise initial events for second time")
  else .ok { listener with
    raisedInitialEvent := true
    events := listener.events ++ [fromInitialDocuments snapshot.documents
      snapshot.mutatedKeys snapshot.fromCache snapshot.excludesMetadataChanges] }

/-- `ShouldRaiseEvent`. -/
def shouldRaiseEvent (snapshot : ViewSnapshot comparator) : Bool :=
  if snapshot.documentChanges ≠ [] then true
  else
    let hasPendingWritesChanged := listener.snapshot.any fun s =>
      s.hasPendingWrites ≠ snapshot.hasPendingWrites
    if snapshot.syncStateChanged || hasPendingWritesChanged then
      listener.options.includeQueryMetadataChanges
    else false

/-- The first event, if it is time for it. -/
def tryInitialEvent (snapshot : ViewSnapshot comparator) (onlineState : OnlineState) :
    Except Crash (QueryListener comparator × Bool) :=
  (listener.shouldRaiseInitialEvent snapshot onlineState).bind fun raise =>
    if raise then
      (listener.raiseInitialEvent snapshot).bind fun listener' => .ok (listener', true)
    else .ok (listener, false)

/-- The snapshot as the listener is handed it. -/
def handed (snapshot : ViewSnapshot comparator) : ViewSnapshot comparator :=
  if ¬listener.options.includeDocumentMetadataChanges then withoutMetadata snapshot
  else snapshot

/-- The events of `OnViewSnapshot`. -/
def tryEvent (snapshot : ViewSnapshot comparator) :
    Except Crash (QueryListener comparator × Bool) :=
  if ¬listener.raisedInitialEvent then
    listener.tryInitialEvent snapshot listener.onlineState
  else if listener.shouldRaiseEvent snapshot then
    .ok ({ listener with events := listener.events ++ [snapshot] }, true)
  else .ok (listener, false)

/-- `OnViewSnapshot`; the result tells whether an event was raised. -/
def onViewSnapshot (snapshot : ViewSnapshot comparator) :
    Except Crash (QueryListener comparator × Bool) :=
  if snapshot.documentChanges = [] ∧ ¬snapshot.syncStateChanged then
    .error (.hardAssert "We got a new snapshot with no changes?")
  else
    (listener.tryEvent (listener.handed snapshot)).bind fun r =>
      .ok ({ r.1 with snapshot := some (listener.handed snapshot) }, r.2)

/-- `OnOnlineStateChanged`. -/
def onOnlineStateChanged (onlineState : OnlineState) :
    Except Crash (QueryListener comparator × Bool) :=
  let listener' := { listener with onlineState := onlineState }
  match listener.snapshot with
  | none => .ok (listener', false)
  | some snapshot =>
      if listener.raisedInitialEvent then .ok (listener', false)
      else listener'.tryInitialEvent snapshot onlineState

end QueryListener

/-! ## The query and its listeners -/

/-- What the local store knows of the target of the query: the documents that the
backend has said to be in it, the version of its last snapshot, and of its last
snapshot without limbo documents. -/
structure TargetData where
  remoteKeys : Finset DocumentKey
  snapshotVersion : Nat
  lastLimboFreeSnapshotVersion : Nat

/-- As `AllocateTarget` makes it for a query that has none. -/
def TargetData.new : TargetData := ⟨∅, 0, 0⟩

/-- The local store, with the target of the query, the view of the query if it is
listened to, and what the event manager has of the query. -/
structure Client (comparator : DocumentComparator κ) where
  store : LocalStore
  target : Option TargetData
  view : Option (View comparator)
  viewSnapshot : Option (ViewSnapshot comparator)
  listeners : List (QueryListener comparator)
  onlineState : OnlineState

/-- What happens to the query: what is asked of the store, a snapshot of the
backend that says something of the query's target, changes of the connection,
listeners of the app that come and go, that the backend refuses the query, and
that the target is collected as garbage. -/
inductive ClientEvent where
  | store (event : StoreEvent)
  | snapshot (event : LocalStore.RemoteEvent) (targetChange : TargetChange)
  | online (onlineState : OnlineState)
  | listen (options : ListenOptions)
  | unlisten (index : Nat)
  | rejectListen
  | forget

/-- The target's part of `LocalStore::ApplyRemoteEvent`. -/
def TargetData.applyChange (target : TargetData) (snapshotVersion : Nat)
    (change : TargetChange) : TargetData :=
  { target with
    remoteKeys := (target.remoteKeys \ change.removedDocuments) ∪ change.addedDocuments
    snapshotVersion :=
      if change.hasResumeToken then snapshotVersion else target.snapshotVersion }

namespace Client

variable (query : Query) (client : Client comparator)

/-- `OnViewSnapshots`, with the snapshot of the query if there is one. -/
def onViewSnapshots (snapshot : Option (ViewSnapshot comparator)) :
    Except Crash (Client comparator) :=
  match snapshot with
  | none => .ok client
  | some snapshot =>
      (client.listeners.mapM fun (listener : QueryListener comparator) =>
        listener.onViewSnapshot snapshot).bind fun told => .ok { client with
        listeners := told.map (·.1)
        viewSnapshot := some snapshot }

/-- `NotifyLocalViewChanges`: a snapshot that is not from the cache is free of limbo
documents. -/
def notifyLocalViewChanges (snapshot : Option (ViewSnapshot comparator)) :
    Except Crash (Client comparator) :=
  if snapshot.any fun s => !s.fromCache then
    match client.target with
    | none => .error (.hardAssert
        "Can't set limbo-free snapshot version for unknown target: %s")
    | some target => .ok { client with
        target := some { target with
          lastLimboFreeSnapshotVersion := target.snapshotVersion } }
  else .ok client

/-- `EmitNewSnapshotsAndNotifyLocalStore`. -/
def emitNewSnapshots (changes : DocumentMap) (targetChange : Option TargetChange) :
    Except Crash (Client comparator) :=
  match client.view with
  | none => .ok client
  | some view =>
      (view.viewDocChanges query changes
          (executeFullCollectionScan client.store query)).bind fun docChanges =>
        (view.applyChanges docChanges targetChange).bind fun r =>
          ({ client with view := some r.1 }.onViewSnapshots r.2.snapshot).bind
            fun client' => client'.notifyLocalViewChanges r.2.snapshot

/-- `Listen` and `InitializeViewAndComputeSnapshot`. -/
def listenToQuery : Except Crash (Client comparator) :=
  match client.view with
  | some _ => .error (.hardAssert "We already listen to query: %s")
  | none =>
      let target := client.target.getD .new
      (getDocumentsMatchingQuery comparator client.store query
          target.lastLimboFreeSnapshotVersion target.remoteKeys).bind fun documents =>
        let view := View.opened target.remoteKeys
        (view.computeDocumentChanges query documents none).bind fun docChanges =>
          (view.applyChanges docChanges none).bind fun r =>
            match r.2.snapshot with
            | none => .error (.hardAssert ("ApplyChanges to documents for new view should " ++
                "always return a snapshot"))
            | some snapshot =>
                { client with
                  target := some target
                  view := some r.1 }.onViewSnapshots (some snapshot)

/-- `AddQueryListener`. -/
def addQueryListener (options : ListenOptions) : Except Crash (Client comparator) :=
  let firstListen := decide (client.listeners = [])
  ((QueryListener.create options).onOnlineStateChanged client.onlineState).bind fun r =>
    if r.2 then
      .error (.hardAssert ("OnOnlineStateChanged() shouldn't raise an event for " ++
        "brand-new listeners."))
    else
      (match client.viewSnapshot with
        | none => Except.ok r
        | some snapshot => r.1.onViewSnapshot snapshot).bind fun r' =>
          let client' := { client with listeners := client.listeners ++ [r'.1] }
          if firstListen then client'.listenToQuery query else .ok client'

/-- `RemoveQueryListener`, and `StopListening` after the last one.  What the local
store knows of the target stays. -/
def removeQueryListener (index : Nat) : Except Crash (Client comparator) :=
  if client.listeners = [] then .ok client
  else
    let listeners := client.listeners.eraseIdx index
    if listeners = [] then
      match client.view with
      | none => .error (.hardAssert "Trying to stop listening to a query not found")
      | some _ => .ok { client with
          listeners := []
          viewSnapshot := none
          view := none }
    else .ok { client with listeners := listeners }

/-- `HandleRejectedListen`: the listeners learn of the error and are forgotten. -/
def handleRejectedListen : Except Crash (Client comparator) :=
  match client.view with
  | none => .error (.unexpectedNil "queries_by_target_.at(target_id)")
  | some _ => .ok { client with
      listeners := []
      viewSnapshot := none
      view := none }

/-- `HandleOnlineStateChange` of the event manager. -/
def tellOnlineState (onlineState : OnlineState) : Except Crash (Client comparator) :=
  (client.listeners.mapM fun (listener : QueryListener comparator) =>
    listener.onOnlineStateChanged onlineState).bind fun told => .ok { client with
      listeners := told.map (·.1)
      onlineState := onlineState }

/-- `HandleOnlineStateChange` of the sync engine. -/
def handleOnlineStateChange (onlineState : OnlineState) : Except Crash (Client comparator) :=
  (match client.view with
    | none => Except.ok client
    | some view =>
        (view.applyOnlineStateChange onlineState).bind fun r =>
          if r.2.limboChanges ≠ [] then
            .error (.hardAssert "OnlineState should not affect limbo documents.")
          else { client with view := some r.1 }.onViewSnapshots r.2.snapshot).bind
    fun client' => client'.tellOnlineState onlineState

/-- `ApplyRemoteEvent`: the documents, and the target if it is listened to. -/
def applyRemoteEvent (event : LocalStore.RemoteEvent) (targetChange : TargetChange) :
    Except Crash (DocumentMap × Client comparator) :=
  (client.store.applyRemoteEvent event).bind fun r => .ok (r.1, { client with
    store := r.2
    target := if client.view.isSome then
        client.target.map fun target => target.applyChange event.snapshotVersion targetChange
      else client.target })

/-- The client and the query after an event.  Only a target that is not listened to
is collected. -/
def step : ClientEvent → Except Crash (Client comparator)
  | .store event =>
      (event.run client.store).bind fun r =>
        { client with store := r.2 }.emitNewSnapshots query r.1 none
  | .snapshot event targetChange =>
      (client.applyRemoteEvent event targetChange).bind fun r =>
        r.2.emitNewSnapshots query r.1 (some targetChange)
  | .online onlineState => client.handleOnlineStateChange onlineState
  | .listen options => client.addQueryListener query options
  | .unlisten index => client.removeQueryListener index
  | .rejectListen => client.handleRejectedListen
  | .forget =>
      .ok (if client.view.isSome then client else { client with target := none })

end Client

/-! ## What a listener has been told -/

/-- The snapshot is of the view as it is. -/
structure Current (view : View comparator) (snapshot : ViewSnapshot comparator) : Prop where
  documents : snapshot.documents = view.documentSet
  mutatedKeys : snapshot.mutatedKeys = view.mutatedKeys
  fromCache : snapshot.fromCache = decide (view.syncState ≠ .synced)

/-- What the listener was handed last is what the view shows, as far as the options
ask for it, and its changes lead there. -/
structure Informed (view : View comparator) (listener : QueryListener comparator) :
    Prop where
  last : ∃ s, listener.events.getLast? = some s ∧ s.documents.SameData view.documentSet ∧
    (listener.options.includeDocumentMetadataChanges → s.documents = view.documentSet) ∧
    (listener.options.includeQueryMetadataChanges →
      s.fromCache = decide (view.syncState ≠ .synced))
  replay : ((listener.events.flatMap (·.documentChanges)).foldl replayOne
    .empty).SameData view.documentSet
  replayAll : listener.options.includeDocumentMetadataChanges →
    (listener.events.flatMap (·.documentChanges)).foldl replayOne .empty = view.documentSet

/-- There is nothing to tell yet: the backend may still confirm the results, and
there are none or the listener waits for that. -/
def Quiet (view : View comparator) (onlineState : OnlineState)
    (listener : QueryListener comparator) : Prop :=
  view.syncState ≠ .synced ∧ onlineState ≠ .offline ∧
    (view.documentSet.documents = [] ∨ listener.options.waitForSyncWhenOnline)

/-- A listener of a query with this view is as it should be. -/
structure Told (view : View comparator) (onlineState : OnlineState)
    (listener : QueryListener comparator) : Prop where
  online : listener.onlineState = onlineState
  snapshot : ∃ s, listener.snapshot = some s ∧ Current view s
  untold : listener.raisedInitialEvent = false →
    listener.events = [] ∧ Quiet view onlineState listener
  told : listener.raisedInitialEvent = true → Informed view listener

section Listeners

variable {view view' : View comparator} {onlineState : OnlineState}
  {listener : QueryListener comparator} {snapshot : ViewSnapshot comparator}

theorem sameData_refl (docs : DocumentSet comparator) : docs.SameData docs := fun _ => rfl

/-- The first event adds every document. -/
theorem replay_initial (docs : DocumentSet comparator) :
    (docs.documents.map fun d => (⟨d, .added⟩ : DocumentViewChange)).foldl replayOne
      (.empty : DocumentSet comparator) = docs := by
  have hdistinct : (docs.documents.map fun d => (⟨d, .added⟩ : DocumentViewChange)).Pairwise
      fun c c' => c.document.key ≠ c'.document.key := by
    refine List.pairwise_map.mpr (docs.sortedSet.nodup.imp_of_mem ?_)
    intro d e hd he hne hkey
    exact hne (docs.unique d hd e he hkey)
  obtain ⟨hin, hout⟩ := getDocument_replay hdistinct (.empty : DocumentSet comparator)
  refine DocumentSet.ext_getDocument fun key => ?_
  cases hget : docs.getDocument key with
  | some d =>
      obtain ⟨hd, rfl⟩ := docs.getDocument_eq_some_iff.mp hget
      exact hin ⟨d, .added⟩ (List.mem_map_of_mem hd)
  | none =>
      refine hout key fun c hc hkey => ?_
      obtain ⟨d, hd, rfl⟩ := List.mem_map.mp hc
      rw [← hkey, docs.getDocument_of_mem hd] at hget
      cases hget

theorem shouldRaiseInitialEvent_ok (huntold : listener.raisedInitialEvent = false)
    (hcurrent : Current view snapshot) (onlineState : OnlineState) :
    ∃ raise, listener.shouldRaiseInitialEvent snapshot onlineState = .ok raise ∧
      (raise = false → Quiet view onlineState listener) := by
  unfold QueryListener.shouldRaiseInitialEvent
  rw [huntold, if_neg Bool.false_ne_true]
  by_cases hcache : snapshot.fromCache = true
  · have hunsynced : view.syncState ≠ .synced := by
      rw [hcurrent.fromCache] at hcache
      exact of_decide_eq_true hcache
    rw [if_neg (not_not.mpr hcache)]
    by_cases hwait : listener.options.waitForSyncWhenOnline = true ∧ onlineState ≠ .offline
    · rw [if_pos hwait]
      exact ⟨false, rfl, fun _ => ⟨hunsynced, hwait.2, .inr hwait.1⟩⟩
    · rw [if_neg hwait]
      refine ⟨_, rfl, ?_⟩
      intro hno
      rw [decide_eq_false_iff_not, not_or, not_not, hcurrent.documents] at hno
      exact ⟨hunsynced, hno.2, .inl hno.1⟩
  · rw [if_pos hcache]
    exact ⟨true, rfl, fun h => by cases h⟩

/-- The first event, or a reason for none. -/
theorem tryInitialEvent_ok (huntold : listener.raisedInitialEvent = false)
    (hevents : listener.events = []) (hcurrent : Current view snapshot)
    (onlineState : OnlineState) :
    ∃ listener' raised, listener.tryInitialEvent snapshot onlineState =
        .ok (listener', raised) ∧
      listener'.onlineState = listener.onlineState ∧
      listener'.snapshot = listener.snapshot ∧
      (listener'.raisedInitialEvent = false →
        listener'.events = [] ∧ Quiet view onlineState listener') ∧
      (listener'.raisedInitialEvent = true → Informed view listener') := by
  obtain ⟨raise, hraise, hquiet⟩ := shouldRaiseInitialEvent_ok huntold hcurrent onlineState
  unfold QueryListener.tryInitialEvent
  rw [hraise]
  cases raise with
  | false =>
      refine ⟨listener, false, rfl, rfl, rfl, fun _ => ⟨hevents, hquiet rfl⟩, ?_⟩
      intro htold
      rw [huntold] at htold
      cases htold
  | true =>
      simp only [Except.bind, if_true, QueryListener.raiseInitialEvent, huntold,
        if_neg Bool.false_ne_true, hevents]
      refine ⟨_, true, rfl, rfl, rfl, fun h => (by cases h), fun _ => ?_⟩
      exact
        { last := by
            refine ⟨_, rfl, ?_, fun _ => hcurrent.documents, fun _ => hcurrent.fromCache⟩
            show snapshot.documents.SameData _
            rw [hcurrent.documents]
            exact sameData_refl _
          replay := by
            show (((snapshot.documents.documents.map fun d => (⟨d, .added⟩ :
              DocumentViewChange)) ++ []).foldl replayOne .empty).SameData _
            rw [List.append_nil, hcurrent.documents, replay_initial]
            exact sameData_refl _
          replayAll := fun _ => by
            show ((snapshot.documents.documents.map fun d => (⟨d, .added⟩ :
              DocumentViewChange)) ++ []).foldl replayOne .empty = _
            rw [List.append_nil, hcurrent.documents, replay_initial] }

theorem handed_current (hcurrent : Current view snapshot) :
    Current view (listener.handed snapshot) := by
  unfold QueryListener.handed
  split
  · exact ⟨hcurrent.documents, hcurrent.mutatedKeys, hcurrent.fromCache⟩
  · exact hcurrent

theorem handed_changes (listener : QueryListener comparator)
    (snapshot : ViewSnapshot comparator) :
    (listener.handed snapshot).documentChanges = snapshot.documentChanges.filter fun c =>
      listener.options.includeDocumentMetadataChanges || decide (c.type ≠ .metadata) := by
  unfold QueryListener.handed
  cases listener.options.includeDocumentMetadataChanges with
  | false => rfl
  | true => exact (List.filter_eq_self.mpr fun _ _ => rfl).symm

theorem handed_all (hinclude : listener.options.includeDocumentMetadataChanges = true) :
    listener.handed snapshot = snapshot := by
  unfold QueryListener.handed
  exact if_neg (not_not.mpr hinclude)

/-- A listener that was told nothing, with a snapshot of the view. -/
theorem onViewSnapshot_first (huntold : listener.raisedInitialEvent = false)
    (hevents : listener.events = []) (hcurrent : Current view snapshot)
    (hchanged : snapshot.documentChanges ≠ [] ∨ snapshot.syncStateChanged = true) :
    ∃ r, listener.onViewSnapshot snapshot = .ok r ∧
      Told view listener.onlineState r.1 := by
  have hcurrent' : Current view (listener.handed snapshot) := handed_current hcurrent
  obtain ⟨listener', raised, htry, honline, -, hquiet, htold⟩ :=
    tryInitialEvent_ok huntold hevents hcurrent' listener.onlineState
  have hassert : ¬(snapshot.documentChanges = [] ∧ ¬snapshot.syncStateChanged = true) := by
    rintro ⟨hnone, hsame⟩
    exact hchanged.elim (fun h => h hnone) hsame
  refine ⟨({ listener' with snapshot := some (listener.handed snapshot) }, raised), ?_, ?_⟩
  · rw [QueryListener.onViewSnapshot, if_neg hassert, QueryListener.tryEvent,
      if_pos (by simp [huntold]), htry]
    rfl
  · exact
      { online := honline
        snapshot := ⟨_, rfl, hcurrent'⟩
        untold := hquiet
        told := fun h => ⟨(htold h).last, (htold h).replay, (htold h).replayAll⟩ }

/-- Where the view shows the same, the listener knows it. -/
theorem Told.congr (h : Told view onlineState listener)
    (hdocs : view'.documentSet = view.documentSet)
    (hkeys : view'.mutatedKeys = view.mutatedKeys)
    (hstate : view'.syncState = view.syncState) : Told view' onlineState listener := by
  obtain ⟨s, hs, hcurrent⟩ := h.snapshot
  refine ⟨h.online, ⟨s, hs, ?_⟩, ?_, ?_⟩
  · exact ⟨hdocs ▸ hcurrent.documents, hkeys ▸ hcurrent.mutatedKeys,
      hstate ▸ hcurrent.fromCache⟩
  · intro huntold
    obtain ⟨hevents, hunsynced, honline, hnothing⟩ := h.untold huntold
    exact ⟨hevents, hstate ▸ hunsynced, honline, hdocs ▸ hnothing⟩
  · intro htold
    obtain ⟨⟨s, hlast, hdata, hfull, hcache⟩, hreplay, hall⟩ := h.told htold
    exact ⟨⟨s, hlast, hdocs ▸ hdata, fun hi => hdocs ▸ hfull hi, fun hi => hstate ▸ hcache hi⟩,
      hdocs ▸ hreplay, fun hi => hdocs ▸ hall hi⟩

theorem Reports.current (h : Reports view view' snapshot) : Current view' snapshot :=
  ⟨h.documents, h.mutatedKeys, h.fromCache⟩

/-- The changes that a listener is handed lead to what the view shows now. -/
theorem replay_handed (h : Reports view view' snapshot) (listener : QueryListener comparator)
    {docs : DocumentSet comparator} (hdocs : docs.SameData view.documentSet) :
    ((listener.handed snapshot).documentChanges.foldl replayOne docs).SameData
      view'.documentSet := by
  rw [handed_changes]
  refine sameData_replay h (fun c hc => ?_) hdocs
  simp only [Bool.or_eq_false_iff, decide_eq_false_iff_not, not_not] at hc
  exact hc.2

/-- A snapshot that is handed over. -/
theorem Informed.raise (h : Informed view listener) (hreports : Reports view view' snapshot)
    (next : Option (ViewSnapshot comparator)) :
    Informed view' { listener with
      events := listener.events ++ [listener.handed snapshot]
      snapshot := next } where
  last := by
    have hcurrent : Current view' (listener.handed snapshot) :=
      handed_current (Reports.current hreports)
    refine ⟨_, List.getLast?_concat, ?_, fun _ => hcurrent.documents,
      fun _ => hcurrent.fromCache⟩
    rw [hcurrent.documents]
    exact sameData_refl _
  replay := by
    show (((listener.events ++ [listener.handed snapshot]).flatMap
      fun s => s.documentChanges).foldl replayOne .empty).SameData _
    rw [List.flatMap_append, List.foldl_append, List.flatMap_singleton]
    exact replay_handed hreports listener h.replay
  replayAll hinclude := by
    show ((listener.events ++ [listener.handed snapshot]).flatMap
      fun s => s.documentChanges).foldl replayOne .empty = _
    rw [List.flatMap_append, List.foldl_append, List.flatMap_singleton, h.replayAll hinclude,
      handed_all (show listener.options.includeDocumentMetadataChanges = true from hinclude)]
    exact replay_eq hreports

/-- A snapshot that is not. -/
theorem Informed.skip (h : Informed view listener) (hreports : Reports view view' snapshot)
    (hno : listener.shouldRaiseEvent (listener.handed snapshot) = false)
    (next : Option (ViewSnapshot comparator)) :
    Informed view' { listener with snapshot := next } := by
  unfold QueryListener.shouldRaiseEvent at hno
  by_cases hnone : (listener.handed snapshot).documentChanges = []
  · rw [if_neg (not_not.mpr hnone)] at hno
    -- the data is the same
    have hsame : view.documentSet.SameData view'.documentSet := by
      have hreplay := replay_handed hreports listener (sameData_refl view.documentSet)
      rwa [hnone] at hreplay
    obtain ⟨⟨s, hlast, hdata, hfull, hcache⟩, hreplay, hall⟩ := h
    have hdocs : listener.options.includeDocumentMetadataChanges = true →
        view'.documentSet = view.documentSet := by
      intro hinclude
      rw [handed_all hinclude] at hnone
      exact hreports.documents_eq hnone
    refine ⟨⟨s, hlast, fun key => (hdata key).trans (hsame key), ?_, ?_⟩,
      fun key => (hreplay key).trans (hsame key), ?_⟩
    · intro hinclude
      rw [hdocs hinclude]
      exact hfull hinclude
    · intro hinclude
      have hstate : (listener.handed snapshot).syncStateChanged = false := by
        by_contra hchanged
        rw [Bool.not_eq_false] at hchanged
        simp only [hchanged, Bool.true_or, if_true] at hno
        rw [show listener.options.includeQueryMetadataChanges = true from hinclude] at hno
        cases hno
      have hsync : snapshot.syncStateChanged = false := by
        rw [← hstate]
        unfold QueryListener.handed
        split <;> rfl
      rw [hreports.syncStateChanged, decide_eq_false_iff_not, not_not] at hsync
      rw [hsync]
      exact hcache hinclude
    · intro hinclude
      rw [hdocs hinclude]
      exact hall hinclude
  · rw [if_pos hnone] at hno
    cases hno

/-- **Snapshots.**  After a snapshot of the view every listener is as it should be
for the view now. -/
theorem onViewSnapshot_ok (h : Told view onlineState listener)
    (hreports : Reports view view' snapshot) :
    ∃ r, listener.onViewSnapshot snapshot = .ok r ∧ Told view' onlineState r.1 := by
  have hcurrent := Reports.current hreports
  cases htold : listener.raisedInitialEvent with
  | false =>
      obtain ⟨hevents, -⟩ := h.untold htold
      obtain ⟨r, hr, hrest⟩ := onViewSnapshot_first htold hevents hcurrent hreports.changed
      exact ⟨r, hr, h.online ▸ hrest⟩
  | true =>
      have hinformed := h.told htold
      have hassert : ¬(snapshot.documentChanges = [] ∧ ¬snapshot.syncStateChanged = true) := by
        rintro ⟨hnone, hsame⟩
        exact hreports.changed.elim (fun h => h hnone) hsame
      rw [QueryListener.onViewSnapshot, if_neg hassert, QueryListener.tryEvent,
        if_neg (not_not.mpr htold)]
      cases hraise : listener.shouldRaiseEvent (listener.handed snapshot) with
      | true =>
          refine ⟨_, rfl, h.online, ⟨_, rfl, handed_current hcurrent⟩, ?_, ?_⟩
          · intro huntold
            rw [show listener.raisedInitialEvent = false from huntold] at htold
            cases htold
          · exact fun _ => hinformed.raise hreports _
      | false =>
          refine ⟨_, rfl, h.online, ⟨_, rfl, handed_current hcurrent⟩, ?_, ?_⟩
          · intro huntold
            rw [show listener.raisedInitialEvent = false from huntold] at htold
            cases htold
          · exact fun _ => hinformed.skip hreports hraise _

/-- **Connections.** -/
theorem onOnlineStateChanged_ok (h : Told view onlineState listener)
    (onlineState' : OnlineState) :
    ∃ r, listener.onOnlineStateChanged onlineState' = .ok r ∧ Told view onlineState' r.1 := by
  obtain ⟨options, raised, state, last, events⟩ := listener
  obtain ⟨s, hs, hcurrent⟩ := h.snapshot
  cases hs
  cases raised with
  | true =>
      refine ⟨_, rfl, rfl, ⟨s, rfl, hcurrent⟩, fun huntold => (by cases huntold), ?_⟩
      exact fun _ => ⟨(h.told rfl).last, (h.told rfl).replay, (h.told rfl).replayAll⟩
  | false =>
      obtain ⟨hevents, -⟩ := h.untold rfl
      obtain ⟨listener', raised, htry, honline, hsnapshot, hquiet, hinformed⟩ :=
        tryInitialEvent_ok
          (show (⟨options, false, onlineState', some s, events⟩ :
            QueryListener comparator).raisedInitialEvent = false from rfl)
          hevents hcurrent onlineState'
      exact ⟨_, htry, honline, ⟨s, hsnapshot, hcurrent⟩, hquiet, hinformed⟩

end Listeners

end ValentinesDay.Ports.QueryListeners
