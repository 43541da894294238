import ValentinesDay.Ports.ViewResults

/-!
# Views of queries

A view applies its changes together with what the backend says of the target, and
hands out a snapshot if something changed.  What is shown as confirmed by the
backend is confirmed: a document that the backend does not have in the target is in
limbo, and a view with limbo documents is not synced.

## Main results

* `viewDocChanges_ok` — changes with a refill where needed.
* `applyChanges_ok` — the view is sound afterwards, and its snapshot reports what
  changed.
* `sameData_replay` — whoever makes the changes of a snapshot has the new data.
-/

namespace ValentinesDay.Ports.QueryView

open ValentinesDay.Ports.Runtime
open ValentinesDay.Ports.Firestore
open ValentinesDay.Ports.Mutations
open ValentinesDay.Ports.Queries
open ValentinesDay.Ports.LocalDocuments
open ValentinesDay.Ports.DocumentSets
open ValentinesDay.Verified.OrderedTable

universe u

variable {κ : Type u} [LinearOrder κ] {comparator : DocumentComparator κ}

/-! ## Applying changes -/

/-- `TargetChange`: for the documents of a target, what became of them. -/
structure TargetChange where
  hasResumeToken : Bool
  current : Bool
  addedDocuments : Finset DocumentKey
  modifiedDocuments : Finset DocumentKey
  removedDocuments : Finset DocumentKey

/-- `LimboDocumentChange`. -/
inductive LimboDocumentChange where
  | added (key : DocumentKey)
  | removed (key : DocumentKey)
  deriving DecidableEq

/-- `ViewSnapshot`. -/
structure ViewSnapshot (comparator : DocumentComparator κ) where
  documents : DocumentSet comparator
  oldDocuments : DocumentSet comparator
  documentChanges : List DocumentViewChange
  mutatedKeys : Finset DocumentKey
  fromCache : Bool
  syncStateChanged : Bool
  excludesMetadataChanges : Bool

/-- `has_pending_writes`. -/
def ViewSnapshot.hasPendingWrites (snapshot : ViewSnapshot comparator) : Bool :=
  snapshot.mutatedKeys ≠ ∅

/-- `ViewChange`. -/
structure ViewChange (comparator : DocumentComparator κ) where
  snapshot : Option (ViewSnapshot comparator)
  limboChanges : List LimboDocumentChange

/-- `GetDocumentViewChangeTypePosition`. -/
def ChangeType.position : ChangeType → Nat
  | .removed => 0
  | .added => 1
  | .modified => 2
  | .metadata => 2

/-- By type, then in the order of the query. -/
def changeOrder (comparator : DocumentComparator κ) (c : DocumentViewChange) : ℕ ×ₗ κ :=
  toLex (c.type.position, comparator.place c.document)

/-- The changes of a snapshot in order. -/
def sortChanges (comparator : DocumentComparator κ) (changes : List DocumentViewChange) :
    List DocumentViewChange :=
  changes.insertionSort fun a b => changeOrder comparator a ≤ changeOrder comparator b

namespace View

variable (view : View comparator)

/-- `ShouldBeInLimbo`. -/
def shouldBeInLimbo (key : DocumentKey) : Bool :=
  if key ∈ view.syncedDocuments then false
  else
    match view.documentSet.getDocument key with
    | none => false
    | some d => !d.hasLocalMutations

/-- `UpdateLimboDocuments`: the new limbo documents, and the changes. -/
def updateLimboDocuments : Finset DocumentKey × List LimboDocumentChange :=
  if ¬view.current then (view.limboDocuments, [])
  else
    let limboDocuments := view.documentSet.keySet.filter fun key => view.shouldBeInLimbo key
    let changes :=
      (((view.limboDocuments \ limboDocuments).sort KeyLE).map .removed) ++
        ((limboDocuments \ view.limboDocuments).sort KeyLE).map .added
    (limboDocuments, changes)

/-- `ApplyTargetChange`. -/
def applyTargetChange (targetChange : Option TargetChange) : Except Crash (View comparator) :=
  match targetChange with
  | none => .ok view
  | some change =>
      let added := view.syncedDocuments ∪ change.addedDocuments
      if change.modifiedDocuments ⊆ added then
        .ok { view with
          syncedDocuments := added \ change.removedDocuments
          current := change.current }
      else .error (.hardAssert "Modified document %s not found in view.")

/-- `ApplyChanges`, whose `changes` are in the set of changes by key. -/
def applyChanges (docChanges : ViewDocumentChanges comparator)
    (targetChange : Option TargetChange) :
    Except Crash (View comparator × ViewChange comparator) :=
  if docChanges.needsRefill then
    .error (.hardAssert "Cannot apply changes that need a refill")
  else
    let changes := sortChanges comparator docChanges.changeSet.rows
    ({ view with
      documentSet := docChanges.documentSet
      mutatedKeys := docChanges.mutatedKeys }.applyTargetChange targetChange).bind
      fun view' =>
        let limbo := view'.updateLimboDocuments
        let synced := limbo.1 = ∅ ∧ view'.current
        let newSyncState := if synced then SyncState.synced else SyncState.localOnly
        let syncStateChanged := decide (newSyncState ≠ view.syncState)
        let view'' := { view' with
          limboDocuments := limbo.1
          syncState := newSyncState }
        if changes = [] ∧ ¬syncStateChanged then .ok (view'', ⟨none, limbo.2⟩)
        else .ok (view'',
          { snapshot := some
              { documents := docChanges.documentSet
                oldDocuments := view.documentSet
                documentChanges := changes
                mutatedKeys := docChanges.mutatedKeys
                fromCache := decide (newSyncState = SyncState.localOnly)
                syncStateChanged := syncStateChanged
                excludesMetadataChanges := false }
            limboChanges := limbo.2 })

end View

/-- Whether the client is online, as far as it knows. -/
inductive OnlineState where
  | unknown
  | online
  | offline
  deriving DecidableEq, Repr

/-- `ApplyOnlineStateChange`. -/
def View.applyOnlineStateChange (view : View comparator) (onlineState : OnlineState) :
    Except Crash (View comparator × ViewChange comparator) :=
  if view.current ∧ onlineState = .offline then
    { view with current := false }.applyChanges
      ⟨view.documentSet, Table.empty, view.mutatedKeys, false⟩ none
  else .ok (view, ⟨none, []⟩)

/-- The changes of a view when documents of the local store change, refilled where
needed with all results of the query (`EmitNewSnapshotsAndNotifyLocalStore`). -/
def View.viewDocChanges (view : View comparator) (query : Query) (changes : DocumentMap)
    (executeQuery : Except Crash DocumentMap) :
    Except Crash (ViewDocumentChanges comparator) :=
  (view.computeDocumentChanges query changes none).bind fun viewDocChanges =>
    if viewDocChanges.needsRefill then
      executeQuery.bind fun documents =>
        view.computeDocumentChanges query documents (some viewDocChanges)
    else .ok viewDocChanges

/-! ## Views of a run -/

/-- The view is as it should be for the documents that match. -/
structure Sound (limit : Option Limit) (result : DocumentKey → Option Document)
    (view : View comparator) : Prop where
  shows : Shows limit result view.documentSet
  mutated : Mutated view.documentSet view.mutatedKeys
  limbo : view.current →
    ∀ key, view.shouldBeInLimbo key → key ∈ view.limboDocuments
  synced : view.syncState = .synced → view.limboDocuments = ∅ ∧ view.current
  started : view.syncState ≠ .unknown

/-- One more document of the view, or one less. -/
def replayOne (docs : DocumentSet comparator) (change : DocumentViewChange) :
    DocumentSet comparator :=
  match change.type with
  | .removed => docs.erase change.document.key
  | _ => docs.insert change.document

/-- A snapshot tells how the view went from `view` to `view'`. -/
structure Reports (view view' : View comparator) (snapshot : ViewSnapshot comparator) :
    Prop where
  documents : snapshot.documents = view'.documentSet
  oldDocuments : snapshot.oldDocuments = view.documentSet
  mutatedKeys : snapshot.mutatedKeys = view'.mutatedKeys
  fromCache : snapshot.fromCache = decide (view'.syncState ≠ .synced)
  syncStateChanged : snapshot.syncStateChanged = decide (view'.syncState ≠ view.syncState)
  metadata : snapshot.excludesMetadataChanges = false
  changed : snapshot.documentChanges ≠ [] ∨ snapshot.syncStateChanged = true
  changes : ∃ changeSet : DocumentViewChangeSet,
    snapshot.documentChanges = sortChanges comparator changeSet.rows ∧
      ∀ key, Diff key (view.documentSet.getDocument key)
        (view'.documentSet.getDocument key) (changeAt changeSet key)

section Apply

variable {view : View comparator} {limit : Option Limit} {query : Query}
  {result result' : DocumentKey → Option Document}

/-- **Changes with refills.**  Refilling once is enough. -/
theorem viewDocChanges_ok {changes : DocumentMap} {executeQuery : Except Crash DocumentMap}
    {documents : DocumentMap} (hmutated : Mutated view.documentSet view.mutatedKeys)
    (hshows : Shows query.limit result view.documentSet)
    (hcovers : Covers query changes result result')
    (hquery : executeQuery = .ok documents)
    (hall : Covers query documents (fun _ => none) result') :
    ∃ docChanges, view.viewDocChanges query changes executeQuery = .ok docChanges ∧
      Tracks view docChanges ∧ docChanges.needsRefill = false ∧
      Shows query.limit result' docChanges.documentSet := by
  obtain ⟨first, hfirst, htracks, hstands, -, hshows'⟩ :=
    shows_of_computeDocumentChanges hmutated hshows hcovers
  unfold View.viewDocChanges
  rw [hfirst, hquery]
  cases hrefill : first.needsRefill with
  | false =>
      refine ⟨first, ?_, htracks, hrefill, hshows' hrefill⟩
      simp only [Except.bind, hrefill, if_neg Bool.false_ne_true]
  | true =>
      obtain ⟨second, hsecond, hrest⟩ := shows_of_refill htracks hstands hall
      refine ⟨second, ?_, hrest⟩
      simp only [Except.bind, hrefill, if_true]
      exact hsecond

/-- The modified documents of a target change are known. -/
def Known (view : View comparator) (targetChange : Option TargetChange) : Prop :=
  ∀ change ∈ targetChange,
    change.modifiedDocuments ⊆ view.syncedDocuments ∪ change.addedDocuments

/-- The documents of the target after a change. -/
def syncedAfter (keys : Finset DocumentKey) : Option TargetChange → Finset DocumentKey
  | none => keys
  | some change => (keys ∪ change.addedDocuments) \ change.removedDocuments

theorem applyTargetChange_ok {targetChange : Option TargetChange}
    (h : Known view targetChange) :
    ∃ current, view.applyTargetChange targetChange = .ok { view with
        syncedDocuments := syncedAfter view.syncedDocuments targetChange
        current := current } ∧
      (targetChange = none → current = view.current) := by
  cases targetChange with
  | none => exact ⟨view.current, rfl, fun _ => rfl⟩
  | some change =>
      unfold View.applyTargetChange
      simp only [if_pos (h change rfl)]
      exact ⟨change.current, rfl, fun h => by cases h⟩

theorem mem_updateLimboDocuments (hcurrent : view.current) {key : DocumentKey}
    (hlimbo : view.shouldBeInLimbo key) : key ∈ view.updateLimboDocuments.1 := by
  have hmem : key ∈ view.documentSet.keySet := by
    rw [view.documentSet.mem_keySet]
    unfold View.shouldBeInLimbo at hlimbo
    split at hlimbo
    · cases hlimbo
    · cases hget : view.documentSet.getDocument key with
      | none => simp [hget] at hlimbo
      | some d => rfl
  unfold View.updateLimboDocuments
  rw [if_neg (not_not.mpr hcurrent)]
  exact Finset.mem_filter.mpr ⟨hmem, hlimbo⟩

theorem updateLimboDocuments_of_not_current (h : view.current = false) :
    view.updateLimboDocuments = (view.limboDocuments, []) := by
  unfold View.updateLimboDocuments
  rw [if_pos (by simp [h])]

/-- What a snapshot, or that there is none, says of a step of the view. -/
def Emits (view view' : View comparator) : Option (ViewSnapshot comparator) → Prop
  | some snapshot => Reports view view' snapshot
  | none => view'.documentSet = view.documentSet ∧ view'.syncState = view.syncState

theorem eq_of_rows_eq_nil {docs docs' : DocumentSet comparator}
    {changeSet : DocumentViewChangeSet} (hrows : changeSet.rows = [])
    (h : ∀ key, Diff key (docs.getDocument key) (docs'.getDocument key)
      (changeAt changeSet key)) : docs' = docs := by
  refine DocumentSet.ext_getDocument fun key => ?_
  have hnone : changeAt changeSet key = none := by
    rw [changeAt, Table.get, hrows]
    rfl
  exact (hnone ▸ h key).eq_of_none

theorem mem_sortChanges {changes : List DocumentViewChange} {c : DocumentViewChange} :
    c ∈ sortChanges comparator changes ↔ c ∈ changes :=
  (List.perm_insertionSort _ changes).mem_iff

theorem sortChanges_eq_nil_iff {changes : List DocumentViewChange} :
    sortChanges comparator changes = [] ↔ changes = [] := by
  rw [← List.length_eq_zero_iff, sortChanges, List.length_insertionSort,
    List.length_eq_zero_iff]

/-- The state of a view that is synced, or is not. -/
def stateOf (synced : Prop) [Decidable synced] : SyncState :=
  if synced then .synced else .localOnly

theorem stateOf_eq_synced_iff (synced : Prop) [Decidable synced] :
    stateOf synced = .synced ↔ synced := by
  by_cases h : synced
  · simp [stateOf, h]
  · simp [stateOf, h]

theorem stateOf_eq_localOnly_iff (synced : Prop) [Decidable synced] :
    stateOf synced = .localOnly ↔ stateOf synced ≠ .synced := by
  by_cases h : synced
  · simp [stateOf, h]
  · simp [stateOf, h]

theorem stateOf_ne_unknown (synced : Prop) [Decidable synced] :
    stateOf synced ≠ .unknown := by
  by_cases h : synced
  · simp [stateOf, h]
  · simp [stateOf, h]

/-- With the limbo documents worked out anew a view is sound. -/
theorem sound_of_updateLimboDocuments {view₁ : View comparator}
    (hshows : Shows limit result view₁.documentSet)
    (hmutated : Mutated view₁.documentSet view₁.mutatedKeys) :
    Sound limit result { view₁ with
      limboDocuments := view₁.updateLimboDocuments.1
      syncState := stateOf (view₁.updateLimboDocuments.1 = ∅ ∧ view₁.current) } where
  shows := hshows
  mutated := hmutated
  limbo hcurrent key hlimbo :=
    mem_updateLimboDocuments (show view₁.current from hcurrent)
      (show view₁.shouldBeInLimbo key from hlimbo)
  synced := (stateOf_eq_synced_iff _).mp
  started := stateOf_ne_unknown _

/-- **Applying changes.** -/
theorem applyChanges_ok {docChanges : ViewDocumentChanges comparator}
    {targetChange : Option TargetChange} (htracks : Tracks view docChanges)
    (hfresh : docChanges.needsRefill = false)
    (hshows : Shows limit result docChanges.documentSet)
    (hknown : Known view targetChange) :
    ∃ view' change, view.applyChanges docChanges targetChange = .ok (view', change) ∧
      Sound limit result view' ∧ Emits view view' change.snapshot ∧
      view'.syncedDocuments = syncedAfter view.syncedDocuments targetChange ∧
      (targetChange = none → view'.current = view.current ∧
        (view.current = false → change.limboChanges = [])) := by
  have hknown' : Known { view with
      documentSet := docChanges.documentSet
      mutatedKeys := docChanges.mutatedKeys } targetChange := hknown
  obtain ⟨current, htarget, hcurrent⟩ := applyTargetChange_ok hknown'
  let view₁ : View comparator := { view with
    documentSet := docChanges.documentSet
    mutatedKeys := docChanges.mutatedKeys
    syncedDocuments := syncedAfter view.syncedDocuments targetChange
    current := current }
  have hlimbo : targetChange = none → view₁.current = view.current ∧
      (view.current = false → view₁.updateLimboDocuments.2 = []) := by
    intro hnone
    refine ⟨hcurrent hnone, fun hview => ?_⟩
    have hcurrent' : view₁.current = false := (hcurrent hnone).trans hview
    rw [updateLimboDocuments_of_not_current hcurrent']
  -- the view afterwards
  let newSyncState := stateOf (view₁.updateLimboDocuments.1 = ∅ ∧ view₁.current)
  let view' : View comparator := { view₁ with
    limboDocuments := view₁.updateLimboDocuments.1
    syncState := newSyncState }
  have hsound : Sound limit result view' :=
    sound_of_updateLimboDocuments hshows htracks.mutated
  have hrun : view.applyChanges docChanges targetChange =
      (let changes := sortChanges comparator docChanges.changeSet.rows
      let syncStateChanged := decide (newSyncState ≠ view.syncState)
      if changes = [] ∧ ¬syncStateChanged then
        .ok (view', ⟨none, view₁.updateLimboDocuments.2⟩)
      else .ok (view',
        { snapshot := some
            { documents := docChanges.documentSet
              oldDocuments := view.documentSet
              documentChanges := changes
              mutatedKeys := docChanges.mutatedKeys
              fromCache := decide (newSyncState = SyncState.localOnly)
              syncStateChanged := syncStateChanged
              excludesMetadataChanges := false }
          limboChanges := view₁.updateLimboDocuments.2 })) := by
    simp only [View.applyChanges, hfresh, if_neg Bool.false_ne_true, htarget]
    rfl
  rw [hrun]
  by_cases hnone : sortChanges comparator docChanges.changeSet.rows = [] ∧
      ¬decide (newSyncState ≠ view.syncState) = true
  · refine ⟨view', _, if_pos hnone, hsound, ⟨?_, ?_⟩, rfl, hlimbo⟩
    · have hrows := sortChanges_eq_nil_iff.mp hnone.1
      exact eq_of_rows_eq_nil hrows htracks.diff
    · simpa using hnone.2
  · refine ⟨view', _, if_neg hnone, hsound, ?_, rfl, hlimbo⟩
    exact
      { documents := rfl
        oldDocuments := rfl
        mutatedKeys := rfl
        fromCache := decide_eq_decide.mpr (stateOf_eq_localOnly_iff _)
        syncStateChanged := rfl
        metadata := rfl
        changed := by
          rcases not_and_or.mp hnone with h | h
          · exact .inl h
          · exact .inr (not_not.mp h)
        changes := ⟨docChanges.changeSet, rfl, htracks.diff⟩ }

end Apply

/-! ## Opening, and going offline -/

section Steps

variable {view : View comparator} {limit : Option Limit} {query : Query}
  {result : DocumentKey → Option Document}

/-- A new view asks for no more documents. -/
theorem opened_ok (comparator : DocumentComparator κ) (keys : Finset DocumentKey)
    {documents : DocumentMap}
    (hall : Covers query documents (fun _ => none) result) :
    ∃ docChanges,
      (View.opened keys : View comparator).computeDocumentChanges query documents
        none = .ok docChanges ∧
      Tracks (View.opened keys) docChanges ∧ docChanges.needsRefill = false ∧
      Shows query.limit result docChanges.documentSet := by
  have hmutated : Mutated (View.opened keys : View comparator).documentSet
      (View.opened keys : View comparator).mutatedKeys := fun key => by
    simp [View.opened]
  obtain ⟨docChanges, hok, htracks, -, hrefill, hshows⟩ :=
    shows_of_computeDocumentChanges hmutated (shows_empty query.limit) hall
  have hno : docChanges.needsRefill = false := by
    rw [hrefill]
    refine List.any_eq_false.mpr fun e _ => Bool.eq_false_iff.mp (refills_eq_false ?_)
    intro o ho
    cases ho
  exact ⟨docChanges, hok, htracks, hno, hshows hno⟩

theorem applyOnlineStateChange_ok (h : Sound limit result view)
    (onlineState : OnlineState) :
    ∃ view' change, view.applyOnlineStateChange onlineState = .ok (view', change) ∧
      Sound limit result view' ∧ Emits view view' change.snapshot ∧
      view'.syncedDocuments = view.syncedDocuments ∧ change.limboChanges = [] ∧
      (onlineState = .offline → view'.syncState ≠ .synced) := by
  unfold View.applyOnlineStateChange
  by_cases hoffline : view.current = true ∧ onlineState = .offline
  · rw [if_pos hoffline]
    have htracks : Tracks { view with current := false }
        ⟨view.documentSet, Table.empty, view.mutatedKeys, false⟩ :=
      ⟨fun _ => .same _, h.mutated⟩
    have hknown : Known { view with current := false } none := fun _ hchange =>
      absurd hchange (Option.not_mem_none _)
    obtain ⟨view', change, hok, hsound, hemits, hsynced, hlimbo⟩ :=
      applyChanges_ok htracks rfl h.shows hknown
    obtain ⟨hcurrent, hnone⟩ := hlimbo rfl
    refine ⟨view', change, hok, hsound, ?_, hsynced, hnone rfl, ?_⟩
    · cases hsnapshot : change.snapshot with
      | none =>
          rw [hsnapshot] at hemits
          exact hemits
      | some snapshot =>
          rw [hsnapshot] at hemits
          exact
            { documents := hemits.documents
              oldDocuments := hemits.oldDocuments
              mutatedKeys := hemits.mutatedKeys
              fromCache := hemits.fromCache
              syncStateChanged := hemits.syncStateChanged
              metadata := hemits.metadata
              changed := hemits.changed
              changes := hemits.changes }
    · intro _ hstate
      have htrue := (hsound.synced hstate).2
      rw [hcurrent] at htrue
      cases htrue
  · rw [if_neg hoffline]
    refine ⟨view, _, rfl, h, ⟨rfl, rfl⟩, rfl, rfl, ?_⟩
    intro honline hstate
    exact hoffline ⟨(h.synced hstate).2, honline⟩

/-- **Confirmed documents.**  In a view that is synced each document is one the
backend has in the target, or has local mutations. -/
theorem Sound.confirmed (h : Sound limit result view) (hsynced : view.syncState = .synced) :
    ∀ d ∈ view.documentSet.documents,
      d.key ∈ view.syncedDocuments ∨ d.hasLocalMutations := by
  intro d hd
  obtain ⟨hlimbo, hcurrent⟩ := h.synced hsynced
  by_contra hnot
  obtain ⟨hkey, hlocal⟩ := not_or.mp hnot
  have hshould : view.shouldBeInLimbo d.key := by
    rw [View.shouldBeInLimbo, if_neg hkey, view.documentSet.getDocument_of_mem hd]
    simpa using hlocal
  have hmem := h.limbo hcurrent d.key hshould
  rw [hlimbo] at hmem
  cases hmem

theorem Mutated.unique {docs : DocumentSet comparator} {keys keys' : Finset DocumentKey}
    (h : Mutated docs keys) (h' : Mutated docs keys') : keys = keys' :=
  Finset.ext fun key => (h key).trans (h' key).symm

end Steps

/-! ## What the changes of a snapshot say -/

section Replay

/-- The document after a change. -/
def after (change : DocumentViewChange) : Option Document :=
  match change.type with
  | .removed => none
  | _ => some change.document

theorem getDocument_replayOne (docs : DocumentSet comparator) (change : DocumentViewChange)
    (key : DocumentKey) : (replayOne docs change).getDocument key =
      if key = change.document.key then after change else docs.getDocument key := by
  unfold replayOne after
  cases change.type with
  | removed => exact docs.getDocument_erase _ key
  | added => exact docs.getDocument_insert _ key
  | modified => exact docs.getDocument_insert _ key
  | metadata => exact docs.getDocument_insert _ key

/-- Changes of different documents, one after the other. -/
theorem getDocument_replay {changes : List DocumentViewChange}
    (hchanges : changes.Pairwise fun c c' => c.document.key ≠ c'.document.key)
    (docs : DocumentSet comparator) :
    (∀ c ∈ changes,
      (changes.foldl replayOne docs).getDocument c.document.key = after c) ∧
    ∀ key, (∀ c ∈ changes, c.document.key ≠ key) →
      (changes.foldl replayOne docs).getDocument key = docs.getDocument key := by
  induction changes generalizing docs with
  | nil => exact ⟨by simp, fun _ _ => rfl⟩
  | cons c changes ih =>
      obtain ⟨hfresh, hchanges'⟩ := List.pairwise_cons.mp hchanges
      obtain ⟨hin, hout⟩ := ih hchanges' (replayOne docs c)
      refine ⟨List.forall_mem_cons.mpr ⟨?_, hin⟩, ?_⟩
      · rw [List.foldl_cons, hout _ fun c' hc' => (hfresh c' hc').symm,
          getDocument_replayOne, if_pos rfl]
      · intro key hkey
        obtain ⟨hne, hkey'⟩ := List.forall_mem_cons.mp hkey
        rw [List.foldl_cons, hout key hkey', getDocument_replayOne, if_neg hne.symm]

theorem pairwise_sortChanges (changeSet : DocumentViewChangeSet) :
    (sortChanges comparator changeSet.rows).Pairwise fun c c' =>
      c.document.key ≠ c'.document.key := by
  have hsymm : Std.Symm fun c c' : DocumentViewChange => c.document.key ≠ c'.document.key :=
    ⟨fun _ _ h => h.symm⟩
  have hrows : changeSet.rows.Pairwise fun c c' => c.document.key ≠ c'.document.key :=
    changeSet.sorted.imp fun hlt heq => absurd (congrArg DocumentKey.path heq) (ne_of_lt hlt)
  exact hrows.perm (List.perm_insertionSort _ _).symm fun h => h.symm

theorem changeAt_eq_some_iff {changeSet : DocumentViewChangeSet} {key : DocumentKey}
    {c : DocumentViewChange} :
    changeAt changeSet key = some c ↔ c ∈ changeSet.rows ∧ c.document.key = key := by
  rw [changeAt, Table.get_eq_some_iff]
  refine and_congr_right fun _ => ?_
  exact ⟨documentKey_ext, congrArg DocumentKey.path⟩

theorem Diff.after_eq {key : DocumentKey} {a b : Option Document} {c : DocumentViewChange}
    (h : Diff key a b (some c)) : after c = b := by
  cases h <;> rfl

theorem Diff.data_eq_of_metadata {key : DocumentKey} {a b : Option Document}
    {c : DocumentViewChange} (h : Diff key a b (some c)) (hc : c.type = .metadata) :
    b.map (·.data) = a.map (·.data) := by
  cases h with
  | added hkey => cases hc
  | removed d hkey => cases hc
  | modified d hkey => cases hc
  | metadata hkey hdata => exact congrArg some hdata

section Snapshot

variable {view view' : View comparator} {snapshot : ViewSnapshot comparator}

/-- What making some of the changes of a snapshot does to one document. -/
theorem getDocument_replay_snapshot (h : Reports view view' snapshot)
    (keep : DocumentViewChange → Bool) (docs : DocumentSet comparator) (key : DocumentKey) :
    ∃ change, Diff key (view.documentSet.getDocument key)
        (view'.documentSet.getDocument key) change ∧
      ((snapshot.documentChanges.filter keep).foldl replayOne docs).getDocument key =
        if change.any keep then view'.documentSet.getDocument key
        else docs.getDocument key := by
  obtain ⟨changeSet, hsorted, hdiff⟩ := h.changes
  rw [hsorted]
  have hpairwise : (sortChanges comparator changeSet.rows).Pairwise fun c c' =>
      c.document.key ≠ c'.document.key := pairwise_sortChanges changeSet
  obtain ⟨hin, hout⟩ := getDocument_replay (hpairwise.filter keep) docs
  refine ⟨changeAt changeSet key, hdiff key, ?_⟩
  by_cases hkept : (changeAt changeSet key).any keep
  · obtain ⟨c, hchange, hkeep⟩ := Option.any_eq_true _ _ |>.mp hkept
    obtain ⟨hmem, hkey⟩ := changeAt_eq_some_iff.mp hchange
    have hc : c ∈ (sortChanges comparator changeSet.rows).filter keep :=
      List.mem_filter.mpr ⟨mem_sortChanges.mpr hmem, hkeep⟩
    have hnew := hdiff key
    rw [hchange] at hnew
    rw [if_pos hkept, ← hnew.after_eq, ← hin c hc, hkey]
  · rw [if_neg hkept]
    refine hout key fun c hc hkey => hkept ?_
    obtain ⟨hmem, hkeep⟩ := List.mem_filter.mp hc
    rw [changeAt_eq_some_iff.mpr ⟨mem_sortChanges.mp hmem, hkey⟩]
    exact hkeep

/-- **Replay.**  Whoever has the old data and makes the changes of a snapshot has
the new data, also when changes of metadata are left out. -/
theorem sameData_replay (h : Reports view view' snapshot) {keep : DocumentViewChange → Bool}
    (hkeep : ∀ c, keep c = false → c.type = .metadata) {docs : DocumentSet comparator}
    (hdocs : docs.SameData view.documentSet) :
    ((snapshot.documentChanges.filter keep).foldl replayOne docs).SameData
      view'.documentSet := by
  intro key
  obtain ⟨change, hdiff, hget⟩ := getDocument_replay_snapshot h keep docs key
  rw [hget]
  cases change with
  | none =>
      rw [hdiff.eq_of_none]
      exact hdocs key
  | some c =>
      cases hkept : keep c with
      | true => rw [Option.any_some, if_pos hkept]
      | false =>
          rw [Option.any_some, hkept, if_neg Bool.false_ne_true,
            hdiff.data_eq_of_metadata (hkeep c hkept)]
          exact hdocs key

/-- All changes of a snapshot lead to its documents. -/
theorem replay_eq (h : Reports view view' snapshot) :
    snapshot.documentChanges.foldl replayOne view.documentSet = view'.documentSet := by
  refine DocumentSet.ext_getDocument fun key => ?_
  obtain ⟨change, hdiff, hget⟩ :=
    getDocument_replay_snapshot h (fun _ => true) view.documentSet key
  rw [List.filter_eq_self.mpr fun _ _ => rfl] at hget
  rw [hget]
  cases change with
  | none => exact hdiff.eq_of_none.symm
  | some c => exact if_pos rfl

end Snapshot

/-- A snapshot without changes is of the documents before. -/
theorem Reports.documents_eq {view view' : View comparator}
    {snapshot : ViewSnapshot comparator} (h : Reports view view' snapshot)
    (hnone : snapshot.documentChanges = []) : view'.documentSet = view.documentSet := by
  obtain ⟨changeSet, hsorted, hdiff⟩ := h.changes
  rw [hnone] at hsorted
  exact eq_of_rows_eq_nil (sortChanges_eq_nil_iff.mp hsorted.symm) hdiff

end Replay

end ValentinesDay.Ports.QueryView
