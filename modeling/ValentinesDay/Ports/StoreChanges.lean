import ValentinesDay.Ports.IndexFree
import ValentinesDay.Verified.Absorb
import ValentinesDay.Verified.Run

/-!
# What the local store reports

Each operation of the local store returns a map of documents, and what listens to
a query is only ever told of these.  The maps are put together from other parts
of the store than the view of a document is: the map of a write from the views
before it, to which the whole batch is applied once for each of its mutations,
and that of a snapshot from the documents the backend sent.

Nothing is missed: a document whose view has changed is in the map, and what the
map has of a document is its view (`reported`).  For a write this rests on the
mutations being the app's, `setData` without merging and `updateData`; an update
that requires the document, followed by a `setData` that merges, would go through
the second time.
-/

namespace ValentinesDay.Ports.StoreChanges

open ValentinesDay.Ports.Runtime
open ValentinesDay.Ports.Firestore
open ValentinesDay.Ports.Mutations
open ValentinesDay.Ports.MutationQueue
open ValentinesDay.Ports.LocalDocuments
open ValentinesDay.Ports.QueryEngine
open ValentinesDay.Verified.OrderedTable
open ValentinesDay.Verified.Absorb
open ValentinesDay.Verified.Fallible
open ValentinesDay.Verified.Run

/-! ## Mutations applied again -/

/-- A document, as far as it exists, under a mutation of the app. -/
def existingAt (key : DocumentKey) (doc : Option MaybeDocument) (m : Mutation) :
    Option MaybeDocument :=
  if m.FromApp ∧ m.key = key then existing (m.applyToLocalView doc) else doc

/-- The document with some fields patched, if it exists. -/
def patched (value : ObjectValue) (mask : List String) :
    Option MaybeDocument → Option MaybeDocument
  | some (.document data version _) =>
      some (.document (patchObject value mask data) version .kLocalMutations)
  | _ => none

/-- A mutation of this document, or of another one. -/
theorem existingAt_cases (key : DocumentKey) (m : Mutation) :
    (∃ value, ∀ doc, existingAt key doc m =
      some (.document value (getPostMutationVersion doc) .kLocalMutations)) ∨
    (∃ value mask, ∀ doc, existingAt key doc m = patched value mask doc) ∨
    (∀ doc, existingAt key doc m = doc) := by
  by_cases hkey : m.FromApp ∧ m.key = key
  · obtain ⟨happ, rfl⟩ := hkey
    cases m with
    | set key value precondition =>
        cases happ
        exact .inl ⟨value, fun doc => if_pos ⟨rfl, rfl⟩⟩
    | patch key value mask precondition =>
        cases happ
        refine .inr (.inl ⟨value, mask, fun doc => (if_pos ⟨rfl, rfl⟩).trans ?_⟩)
        rcases doc with _ | doc
        · rfl
        · cases doc <;> rfl
    | delete key precondition => cases happ
  · exact .inr (.inr fun doc => if_neg hkey)

theorem getPostMutationVersion_patched (value : ObjectValue) (mask : List String)
    (doc : Option MaybeDocument) :
    getPostMutationVersion (patched value mask doc) = getPostMutationVersion doc := by
  rcases doc with _ | doc
  · rfl
  · cases doc <;> rfl

/-- No mutation of the app changes the version. -/
theorem getPostMutationVersion_existingAt (key : DocumentKey) (doc : Option MaybeDocument)
    (m : Mutation) :
    getPostMutationVersion (existingAt key doc m) = getPostMutationVersion doc := by
  rcases existingAt_cases key m with ⟨value, hm⟩ | ⟨value, mask, hm⟩ | hm
  · rw [hm]
    rfl
  · rw [hm, getPostMutationVersion_patched]
  · rw [hm]

theorem patched_patched (value : ObjectValue) (mask : List String)
    (doc : Option MaybeDocument) :
    patched value mask (patched value mask doc) = patched value mask doc := by
  rcases doc with _ | doc
  · rfl
  · cases doc with
    | document data version state => simp only [patched, patch_twice]
    | noDocument version committed => rfl
    | unknownDocument version => rfl

theorem patched_around (value value' : ObjectValue) (mask mask' : List String)
    (doc : Option MaybeDocument) :
    patched value mask (patched value' mask' (patched value mask doc)) =
      patched value mask (patched value' mask' doc) := by
  rcases doc with _ | doc
  · rfl
  · cases doc with
    | document data version state => simp only [patched, patch_around]
    | noDocument version committed => rfl
    | unknownDocument version => rfl

theorem absorbing_existingAt (key : DocumentKey) : Absorbing (existingAt key) where
  twice doc m := by
    rcases existingAt_cases key m with ⟨value, hm⟩ | ⟨value, mask, hm⟩ | hm
    · rw [hm, hm]
      rfl
    · rw [hm, hm, patched_patched]
    · rw [hm]
  around doc m m' := by
    rcases existingAt_cases key m with ⟨value, hm⟩ | ⟨value, mask, hm⟩ | hm
    · -- a set document keeps the version only
      rw [hm (existingAt key (existingAt key doc m) m'), hm (existingAt key doc m')]
      simp only [getPostMutationVersion_existingAt]
    · simp only [hm]
      rcases existingAt_cases key m' with ⟨value', hm'⟩ | ⟨value', mask', hm'⟩ | hm'
      · rw [hm', hm', getPostMutationVersion_patched]
      · rw [hm', hm', patched_around]
      · rw [hm', hm', patched_patched]
    · rw [hm, hm, hm]

/-! ## Views by what exists -/

section Views

variable {key : DocumentKey}

theorem existing_some_getD (doc : Option MaybeDocument) :
    existing (some (doc.getD (.noDocument 0 false))) = existing doc := by
  cases doc <;> rfl

/-- What exists afterwards depends on what existed. -/
theorem existing_foldl_congr (batches : List MutationBatch) {doc doc' : Option MaybeDocument}
    (h : existing doc = existing doc') :
    existing (batches.foldl (applyToLocalDocument key) doc) =
      existing (batches.foldl (applyToLocalDocument key) doc') := by
  rw [foldl_applyToLocalDocument, foldl_applyToLocalDocument, ← existing_foldl,
    ← existing_foldl, h]

theorem existing_applyToLocalDocument {batch : MutationBatch}
    (happ : ∀ m ∈ batch.mutations, m.FromApp) (doc : Option MaybeDocument) :
    existing (applyToLocalDocument key doc batch) =
      batch.mutations.foldl (existingAt key) (existing doc) := by
  rw [applyToLocalDocument, ← existing_foldl]
  refine List.foldl_ext _ _ _ fun d m hm => ?_
  simp only [existingAt, happ m hm, true_and]

/-- A batch of the app applied to what it was applied to. -/
theorem existing_applyToLocalDocument_twice {batch : MutationBatch}
    (happ : ∀ m ∈ batch.mutations, m.FromApp) (doc : Option MaybeDocument) :
    existing (applyToLocalDocument key (applyToLocalDocument key doc batch) batch) =
      existing (applyToLocalDocument key doc batch) := by
  rw [existing_applyToLocalDocument happ, existing_applyToLocalDocument happ]
  exact (absorbing_existingAt key).words.twice _ batch.mutations

theorem isSome_applyToLocalView (m : Mutation) {doc : Option MaybeDocument}
    (h : doc.isSome) : (m.applyToLocalView doc).isSome := by
  unfold Mutation.applyToLocalView
  split
  · cases m <;> rfl
  · exact h

theorem isSome_applyToLocalDocument (key : DocumentKey) (batch : MutationBatch)
    {doc : Option MaybeDocument} (h : doc.isSome) : (applyToLocalDocument key doc batch).isSome := by
  unfold applyToLocalDocument
  induction batch.mutations generalizing doc with
  | nil => exact h
  | cons m ms ih =>
      rw [List.foldl_cons]
      refine ih ?_
      split
      · exact isSome_applyToLocalView m h
      · exact h

end Views

/-! ## Reports -/

/-- The map has every document whose view has changed, with its view now. -/
def Reported (changes : DocumentMap) (before after : DocumentKey → Option MaybeDocument) :
    Prop :=
  ∀ key, existing (after key) =
    match changes.find key with
    | some doc => existing (some doc)
    | none => existing (before key)

section Operations

variable {store : LocalStore} {s : PendingBatches}

/-- The documents of mutations of a batch, each under the batch in the end. -/
theorem find_foldl_applyToLocalDocument {batch : MutationBatch}
    (happ : ∀ m ∈ batch.mutations, m.FromApp) (ms : List Mutation) {docs : DocumentMap}
    (hdocs : ∀ m ∈ ms, (docs.find m.key).isSome) (key : DocumentKey) :
    let changed := ms.foldl (fun docs m =>
      match applyToLocalDocument m.key (DocumentMap.find docs m.key) batch with
      | some doc => docs.put ⟨m.key, doc⟩
      | none => docs) docs
    (DocumentMap.find changed key).isSome = (docs.find key).isSome ∧
      existing (DocumentMap.find changed key) =
        if key ∈ ms.map (·.key) then
          existing (applyToLocalDocument key (docs.find key) batch)
        else existing (docs.find key) := by
  induction ms generalizing docs with
  | nil => exact ⟨rfl, rfl⟩
  | cons m ms ih =>
      obtain ⟨hm, hrest⟩ := List.forall_mem_cons.mp hdocs
      obtain ⟨new, hnew⟩ := Option.isSome_iff_exists.mp
        (isSome_applyToLocalDocument m.key batch hm)
      have hfind : ∀ key', DocumentMap.find (docs.put ⟨m.key, new⟩) key' =
          if key' = m.key then some new else docs.find key' := find_put docs m.key new
      have hdocs' : ∀ m' ∈ ms,
          (DocumentMap.find (docs.put ⟨m.key, new⟩) m'.key).isSome := by
        intro m' hm'
        rw [hfind]
        split
        · rfl
        · exact hrest m' hm'
      obtain ⟨hsome, hexisting⟩ := ih hdocs'
      simp only [List.foldl_cons, hnew]
      refine ⟨?_, ?_⟩
      · rw [hsome, hfind]
        split
        · next hkey => rw [hkey, hm]; rfl
        · rfl
      · rw [hexisting, hfind]
        by_cases hkey : key = m.key
        · subst hkey
          have hmem : m.key ∈ (m :: ms).map (·.key) := List.mem_cons_self
          rw [if_pos rfl, if_pos hmem, ← hnew, existing_applyToLocalDocument_twice happ,
            ite_self]
        · have hmem : key ∈ (m :: ms).map (·.key) ↔ key ∈ ms.map (·.key) := by
            simp [hkey]
          simp only [if_neg hkey, hmem]

/-- A document that a batch does not affect. -/
theorem view_of_pop {batch : MutationBatch} (hb : s.batches.head? = some batch)
    {key : DocumentKey} (hkey : batch.affects key = false) (doc : Option MaybeDocument) :
    s.pop.batches.foldl (applyToLocalDocument key) doc =
      s.batches.foldl (applyToLocalDocument key) doc := by
  obtain ⟨rest, hrest⟩ := List.head?_eq_some_iff.mp hb
  have hpop : s.pop.batches = rest := by
    show s.batches.tail = rest
    rw [hrest]
    rfl
  rw [hpop, hrest, List.foldl_cons, applyToLocalDocument_of_not_affects hkey]

theorem reported_of_getDocuments {store' : LocalStore} {s' : PendingBatches}
    (h' : store'.mutationQueue.Represents s') {ks : List DocumentKey} {changes : DocumentMap}
    (hchanges : store'.getDocuments ks = .ok changes)
    (hothers : ∀ key, key ∉ ks → store'.view s' key = store.view s key) :
    Reported changes (store.view s) (store'.view s') := by
  obtain ⟨docs, hdocs, hfind⟩ := getDocuments_ok h' ks
  cases hdocs.symm.trans hchanges
  intro key
  rw [hfind]
  by_cases hkey : key ∈ ks
  · simp only [if_pos hkey]
    exact (existing_some_getD _).symm
  · simp only [if_neg hkey]
    rw [hothers key hkey]

/-! ### Writes -/

theorem writeLocally_reported (h : store.mutationQueue.Represents s)
    {mutations : List Mutation} (hne : mutations ≠ [])
    (happ : ∀ m ∈ mutations, m.FromApp) :
    ∃ changes queue,
      store.writeLocally mutations =
        .ok (⟨s.next, mutations⟩, changes, { store with mutationQueue := queue }) ∧
      queue.Represents (s.push mutations hne) ∧
      Reported changes (store.view s)
        (LocalStore.view { store with mutationQueue := queue } (s.push mutations hne)) := by
  obtain ⟨docs, hdocs, hfind⟩ := getDocuments_ok h (mutations.map (·.key)).dedup
  obtain ⟨queue, hadd, hrep⟩ := h.add hne
  have hsome : ∀ m ∈ mutations, (docs.find m.key).isSome := by
    intro m hm
    rw [hfind, if_pos (List.mem_dedup.mpr (List.mem_map_of_mem hm))]
    rfl
  have hchanged := find_foldl_applyToLocalDocument
    (show ∀ m ∈ (⟨s.next, mutations⟩ : MutationBatch).mutations, m.FromApp from happ)
    mutations hsome
  refine ⟨applyToLocalDocumentSet ⟨s.next, mutations⟩ docs, queue, ?_, hrep, ?_⟩
  · rw [LocalStore.writeLocally, hdocs]
    show (store.mutationQueue.addMutationBatch mutations).bind _ = _
    rw [hadd]
    rfl
  · intro key
    obtain ⟨hdom, hexisting⟩ := hchanged key
    change (DocumentMap.find (applyToLocalDocumentSet _ docs) key).isSome = _ at hdom
    change existing (DocumentMap.find (applyToLocalDocumentSet _ docs) key) = _ at hexisting
    have hview : LocalStore.view { store with mutationQueue := queue }
        (s.push mutations hne) key =
          applyToLocalDocument key (store.view s key) ⟨s.next, mutations⟩ := by
      show (s.batches ++ [_]).foldl _ _ = _
      rw [List.foldl_append]
      rfl
    rw [hview]
    by_cases hkey : key ∈ mutations.map (·.key)
    · have hold := hfind key
      rw [if_pos (List.mem_dedup.mpr hkey)] at hold
      rw [if_pos hkey, hold] at hexisting
      rw [hold] at hdom
      obtain ⟨doc, hdoc⟩ := Option.isSome_iff_exists.mp hdom
      simp only [hdoc] at hexisting ⊢
      rw [hexisting, existing_applyToLocalDocument happ, existing_applyToLocalDocument happ,
        existing_some_getD]
    · have hold := hfind key
      rw [if_neg (fun hmem => hkey (List.mem_dedup.mp hmem))] at hold
      rw [hold] at hdom
      have hnone := Option.not_isSome_iff_eq_none.mp (Bool.eq_false_iff.mp hdom)
      simp only [hnone]
      rw [applyToLocalDocument_of_not_affects]
      exact List.any_eq_false.mpr fun m hm hmkey =>
        hkey (List.mem_map.mpr ⟨m, hm, of_decide_eq_true hmkey⟩)

/-- Writes that are not the app's: an update of a document that is not there, and a
`setData` that merges.  The batch is applied once for each of the two, so that the
update goes through in the map, but not in the view. -/
example :
    let updateAndMerge : MutationBatch := ⟨1,
      [ .patch (clueKey "Clue1") (ObjectValue.ofList [("a", .number 1)]) ["a"]
          (.mustExist true),
        .patch (clueKey "Clue1") (ObjectValue.ofList [("b", .number 2)]) ["b"] .none ]⟩
    let missing : DocumentMap := Table.empty.put ⟨clueKey "Clue1", .noDocument 0 false⟩
    ((dataOf ((applyToLocalDocumentSet updateAndMerge missing).find (clueKey "Clue1"))).bind
        (·.lookup "a")).isSome = true ∧
      ((dataOf (applyToLocalDocument (clueKey "Clue1") (some (.noDocument 0 false))
        updateAndMerge)).bind (·.lookup "a")).isSome = false := by decide

/-! ### Answers of the backend -/

theorem not_affects_of_not_mem_keys {batch : MutationBatch} {key : DocumentKey}
    (h : key ∉ keys batch) : batch.affects key = false := by
  rw [mem_keys] at h
  exact Bool.eq_false_iff.mpr h

theorem rejectBatch_reported (h : store.mutationQueue.Represents s) {batch : MutationBatch}
    (hb : s.batches.head? = some batch) :
    ∃ changes queue,
      store.rejectBatch batch.batchId =
        .ok (changes, { store with mutationQueue := queue }) ∧
      queue.Represents s.pop ∧
      Reported changes (store.view s)
        (LocalStore.view { store with mutationQueue := queue } s.pop) := by
  obtain ⟨queue, hremove, hrep⟩ := h.remove hb
  have hrep' : ({ store with mutationQueue := queue } : LocalStore).mutationQueue.Represents
      s.pop := hrep
  obtain ⟨docs, hdocs, -⟩ := getDocuments_ok hrep' (keys batch)
  refine ⟨docs, queue, ?_, hrep, reported_of_getDocuments hrep' hdocs fun key hkey => ?_⟩
  · rw [LocalStore.rejectBatch, lookup_front h hb]
    show (store.mutationQueue.removeMutationBatch batch).bind _ = _
    rw [hremove]
    show queue.performConsistencyCheck.bind _ = _
    rw [hrep.consistent]
    show (LocalStore.getDocuments { store with mutationQueue := queue } (keys batch)).bind _ =
      _
    rw [hdocs]
    rfl
  · exact view_of_pop hb (not_affects_of_not_mem_keys hkey) _

theorem acknowledgeBatch_reported {result : LocalStore.MutationBatchResult}
    (h : store.mutationQueue.Represents s) (hb : s.batches.head? = some result.batch)
    (hlength : result.versions.length = result.batch.mutations.length) :
    ∃ changes store',
      store.acknowledgeBatch result = .ok (changes, store') ∧
      store'.mutationQueue.Represents s.pop ∧
      store'.lastRemoteSnapshotVersion = store.lastRemoteSnapshotVersion ∧
      Reported changes (store.view s) (store'.view s.pop) := by
  obtain ⟨changes, queue, cache, hok, hrep, hget⟩ := acknowledgeBatch_ok h hb hlength
  refine ⟨changes, _, hok, hrep, rfl, ?_⟩
  -- the map is read from the store afterwards
  have hchanges : LocalStore.getDocuments { store with
      mutationQueue := queue, remoteDocumentCache := cache } (keys result.batch) =
        .ok changes := by
    unfold LocalStore.acknowledgeBatch at hok
    obtain ⟨store', -, hok⟩ := bind_eq_ok_iff.mp hok
    obtain ⟨-, -, hok⟩ := bind_eq_ok_iff.mp hok
    obtain ⟨docs, hdocs, hok⟩ := bind_eq_ok_iff.mp hok
    cases hok
    exact hdocs
  refine reported_of_getDocuments hrep hchanges fun key hkey => ?_
  have haffects := not_affects_of_not_mem_keys hkey
  have hcache : cache.get key = store.remoteDocumentCache.get key := by
    rw [hget, if_neg (by simp [haffects])]
  show s.pop.batches.foldl _ (cache.get key) = _
  rw [hcache]
  exact view_of_pop hb haffects _

/-! ### Snapshots -/

/-- A document that is said to be changed is in the cache as it was sent, or not at
all if it was made up. -/
theorem applyUpdate_reported {snapshotVersion : Nat} (cache : RemoteDocumentCache)
    (e : KeyedDocument) (hmade : snapshotVersion = 0 → LocalStore.isManufactured e.document) :
    ∃ cache' changed, LocalStore.applyUpdate snapshotVersion cache e = .ok (cache', changed) ∧
      (if changed then existing (cache'.get e.key) = existing (some e.document)
        else cache' = cache) ∧
      ∀ key, key ≠ e.key → cache'.get key = cache.get key := by
  unfold LocalStore.applyUpdate
  by_cases hmanufactured : LocalStore.isManufactured e.document
  · refine ⟨_, _, if_pos hmanufactured, ?_, ?_⟩
    · rw [if_pos rfl, get_remove, if_pos rfl]
      cases hdoc : e.document with
      | document data version state => simp [hdoc, LocalStore.isManufactured] at hmanufactured
      | noDocument version committed => rfl
      | unknownDocument version => rfl
    · intro key hkey
      rw [get_remove, if_neg hkey]
  · have hne : snapshotVersion ≠ 0 := fun hzero => hmanufactured (hmade hzero)
    rw [if_neg hmanufactured]
    by_cases hnewer : ∀ existing ∈ cache.get e.key,
        e.document.version > existing.version ∨
          e.document.version = existing.version ∧ existing.hasPendingWrites
    · rw [if_pos hnewer, if_neg hne]
      refine ⟨_, _, rfl, ?_, ?_⟩
      · rw [if_pos rfl, get_add, if_pos rfl]
      · intro key hkey
        rw [get_add, if_neg hkey]
    · exact ⟨_, _, if_neg hnewer, rfl, fun _ _ => rfl⟩

theorem applyUpdates_reported {snapshotVersion : Nat} (cache : RemoteDocumentCache)
    {es : List KeyedDocument} (hes : es.Pairwise fun e e' => e.key ≠ e'.key)
    (hmade : snapshotVersion = 0 → ∀ e ∈ es, LocalStore.isManufactured e.document) :
    ∃ cache' changed,
      LocalStore.applyUpdates snapshotVersion cache es = .ok (cache', changed) ∧
      changed.Sublist es ∧
      (∀ e ∈ changed, existing (cache'.get e.key) = existing (some e.document)) ∧
      ∀ key, (∀ e ∈ changed, e.key ≠ key) → cache'.get key = cache.get key := by
  induction es generalizing cache with
  | nil => exact ⟨cache, [], rfl, List.Sublist.refl [], by simp, fun _ _ => rfl⟩
  | cons e es ih =>
      obtain ⟨hfresh, hes'⟩ := List.pairwise_cons.mp hes
      obtain ⟨cache₁, isChanged, hone, hget₁, hothers₁⟩ :=
        applyUpdate_reported cache e fun hzero => hmade hzero e List.mem_cons_self
      obtain ⟨cache₂, changed, hrest, hsub, hin, hout⟩ :=
        ih cache₁ hes' fun hzero e' he' => hmade hzero e' (List.mem_cons_of_mem e he')
      have hfresh' : ∀ e' ∈ changed, e'.key ≠ e.key := fun e' he' =>
        (hfresh e' (hsub.subset he')).symm
      refine ⟨cache₂, if isChanged then e :: changed else changed, ?_, ?_⟩
      · rw [LocalStore.applyUpdates, hone]
        show (LocalStore.applyUpdates snapshotVersion cache₁ es).bind _ = _
        rw [hrest]
        rfl
      · cases isChanged with
        | true =>
            rw [if_pos rfl] at hget₁ ⊢
            refine ⟨hsub.cons_cons e, List.forall_mem_cons.mpr ⟨?_, hin⟩, ?_⟩
            · rw [hout e.key hfresh', hget₁]
            · intro key hkey
              obtain ⟨hne', hkey'⟩ := List.forall_mem_cons.mp hkey
              rw [hout key hkey', hothers₁ key hne'.symm]
        | false =>
            rw [if_neg Bool.false_ne_true] at hget₁ ⊢
            refine ⟨hsub.cons e, hin, ?_⟩
            intro key hkey
            rw [hout key hkey, hget₁]

/-- Entries of different documents, put into a map one after the other. -/
theorem find_foldl_put_entries (f : KeyedDocument → MaybeDocument) {es : List KeyedDocument}
    (hes : es.Pairwise fun e e' => e.key ≠ e'.key) (docs : DocumentMap) (key : DocumentKey) :
    DocumentMap.find (es.foldl (fun docs e => docs.put ⟨e.key, f e⟩) docs) key =
      match es.find? fun e => e.key = key with
      | some e => some (f e)
      | none => docs.find key := by
  induction es generalizing docs with
  | nil => rfl
  | cons e es ih =>
      obtain ⟨hfresh, hes'⟩ := List.pairwise_cons.mp hes
      rw [List.foldl_cons, ih hes', find_put]
      by_cases hkey : e.key = key
      · have hnone : (es.find? fun e => e.key = key) = none := by
          refine List.find?_eq_none.mpr fun e' he' => ?_
          rw [decide_eq_true_eq, ← hkey]
          exact (hfresh e' he').symm
        rw [hnone, List.find?_cons_of_pos (by simpa using hkey)]
        exact if_pos hkey.symm
      · rw [List.find?_cons_of_neg (by simpa using hkey)]
        split
        · rfl
        · exact if_neg fun h => hkey h.symm

/-- The version of the last snapshot after an event: a rejected limbo resolution has
none. -/
def lastVersionAfter (last : Nat) (event : LocalStore.RemoteEvent) : Nat :=
  if event.snapshotVersion = 0 then last else event.snapshotVersion

theorem applyRemoteEvent_reported (h : store.mutationQueue.Represents s)
    {event : LocalStore.RemoteEvent}
    (hmade : event.snapshotVersion = 0 →
      ∀ e ∈ event.documentUpdates, LocalStore.isManufactured e.document)
    (hlast : event.snapshotVersion ≠ 0 →
      store.lastRemoteSnapshotVersion ≤ event.snapshotVersion)
    (hupdates : event.documentUpdates.Pairwise fun e e' => e.key ≠ e'.key) :
    ∃ changes cache,
      store.applyRemoteEvent event = .ok (changes, { store with
        remoteDocumentCache := cache
        lastRemoteSnapshotVersion :=
          lastVersionAfter store.lastRemoteSnapshotVersion event }) ∧
      Reported changes (store.view s) (LocalStore.view { store with
        remoteDocumentCache := cache
        lastRemoteSnapshotVersion :=
          lastVersionAfter store.lastRemoteSnapshotVersion event } s) := by
  obtain ⟨cache, changed, hcache, hsub, hin, hout⟩ :=
    applyUpdates_reported store.remoteDocumentCache hupdates hmade
  have hdistinct := hupdates.sublist hsub
  have hforward : ¬(event.snapshotVersion ≠ 0 ∧
      event.snapshotVersion < store.lastRemoteSnapshotVersion) :=
    fun hback => absurd (hlast hback.1) (not_le.mpr hback.2)
  have hrun : store.applyRemoteEvent event =
      .ok ((changed.map fun e => (e.key, some e.document)).foldl (fun results e =>
        results.put ⟨e.1, (s.batches.foldl (applyToLocalDocument e.1) e.2).getD
          (.noDocument 0 false)⟩) Table.empty, { store with
        remoteDocumentCache := cache
        lastRemoteSnapshotVersion :=
          lastVersionAfter store.lastRemoteSnapshotVersion event }) := by
    rw [LocalStore.applyRemoteEvent, hcache]
    simp only [Except.bind, if_neg hforward]
    rw [getLocalViewOfDocuments_ok (s := s) (by exact h)]
    rfl
  refine ⟨_, cache, hrun, ?_⟩
  · intro key
    rw [List.foldl_map, find_foldl_put_entries (fun e =>
      (s.batches.foldl (applyToLocalDocument e.key) (some e.document)).getD
        (.noDocument 0 false)) hdistinct]
    cases hfind : changed.find? fun e => e.key = key with
    | some e =>
        have hmem := List.mem_of_find?_eq_some hfind
        have hkey : e.key = key := by simpa using List.find?_some hfind
        subst hkey
        simp only [existing_some_getD]
        exact existing_foldl_congr s.batches (hin e hmem)
    | none =>
        have hnone : ∀ e ∈ changed, e.key ≠ key := fun e he => by
          simpa using List.find?_eq_none.mp hfind e he
        show existing (s.batches.foldl _ (cache.get key)) = existing (s.batches.foldl _ _)
        rw [hout key hnone]

end Operations

/-! ## Runs -/

/-- What the sync engine asks of the store. -/
inductive StoreEvent where
  | write (mutations : List Mutation)
  | acknowledge (result : LocalStore.MutationBatchResult)
  | reject (batchId : Nat)
  | snapshot (event : LocalStore.RemoteEvent)

/-- The operation of the store. -/
def StoreEvent.run (store : LocalStore) :
    StoreEvent → Except Crash (DocumentMap × LocalStore)
  | .write mutations => (store.writeLocally mutations).bind fun r => .ok (r.2.1, r.2.2)
  | .acknowledge result => store.acknowledgeBatch result
  | .reject batchId => store.rejectBatch batchId
  | .snapshot event => store.applyRemoteEvent event

/-- The batches that wait, and the version of the last snapshot. -/
structure Progress where
  pending : PendingBatches
  lastRemoteSnapshotVersion : Nat

/-- A new store. -/
def Progress.none : Progress := ⟨PendingBatches.empty, 0⟩

/-- What the callers keep to.  Writes are those of the app, `setData` without merging
and `updateData`, and the backend answers the first batch.  Snapshots have each
document once and versions that do not go back; without a version they are of
rejected limbo documents. -/
def StoreEvent.Allowed (p : Progress) : StoreEvent → Prop
  | .write mutations => mutations ≠ [] ∧ ∀ m ∈ mutations, m.FromApp
  | .acknowledge result =>
      p.pending.batches.head? = some result.batch ∧
        result.versions.length = result.batch.mutations.length
  | .reject batchId => ∃ batch ∈ p.pending.batches.head?, batch.batchId = batchId
  | .snapshot event =>
      (event.snapshotVersion = 0 →
        ∀ e ∈ event.documentUpdates, LocalStore.isManufactured e.document) ∧
      (event.snapshotVersion ≠ 0 → p.lastRemoteSnapshotVersion ≤ event.snapshotVersion) ∧
      event.documentUpdates.Pairwise fun e e' => e.key ≠ e'.key

/-- How far the callers are after an event. -/
def StoreEvent.next (p : Progress) : StoreEvent → Progress
  | .write mutations =>
      if h : mutations ≠ [] then ⟨p.pending.push mutations h, p.lastRemoteSnapshotVersion⟩
      else p
  | .acknowledge _ => ⟨p.pending.pop, p.lastRemoteSnapshotVersion⟩
  | .reject _ => ⟨p.pending.pop, p.lastRemoteSnapshotVersion⟩
  | .snapshot event => ⟨p.pending, lastVersionAfter p.lastRemoteSnapshotVersion event⟩

/-- The store has got this far. -/
structure At (store : LocalStore) (p : Progress) : Prop where
  queue : store.mutationQueue.Represents p.pending
  snapshot : store.lastRemoteSnapshotVersion = p.lastRemoteSnapshotVersion

/-- **One operation.**  It does not fail, and misses no document. -/
theorem run_reported {store : LocalStore} {p : Progress} (h : At store p)
    {event : StoreEvent} (hevent : event.Allowed p) :
    ∃ changes store', event.run store = .ok (changes, store') ∧ At store' (event.next p) ∧
      Reported changes (store.view p.pending) (store'.view (event.next p).pending) := by
  cases event with
  | write mutations =>
      obtain ⟨hne, happ⟩ := hevent
      obtain ⟨changes, queue, hrun, hrep, hreported⟩ := writeLocally_reported h.queue hne happ
      simp only [StoreEvent.run, StoreEvent.next, dif_pos hne, hrun]
      exact ⟨changes, _, rfl, ⟨hrep, h.snapshot⟩, hreported⟩
  | acknowledge result =>
      obtain ⟨hfirst, hlength⟩ := hevent
      obtain ⟨changes, store', hrun, hrep, hlast, hreported⟩ :=
        acknowledgeBatch_reported h.queue hfirst hlength
      exact ⟨changes, store', hrun, ⟨hrep, hlast.trans h.snapshot⟩, hreported⟩
  | reject batchId =>
      obtain ⟨batch, hfirst, rfl⟩ := hevent
      obtain ⟨changes, queue, hrun, hrep, hreported⟩ :=
        rejectBatch_reported h.queue (Option.mem_def.mp hfirst)
      exact ⟨changes, _, hrun, ⟨hrep, h.snapshot⟩, hreported⟩
  | snapshot event =>
      obtain ⟨hmade, hlast, hupdates⟩ := hevent
      obtain ⟨changes, cache, hrun, hreported⟩ :=
        applyRemoteEvent_reported h.queue hmade (h.snapshot ▸ hlast) hupdates
      refine ⟨changes, _, hrun, ⟨h.queue, ?_⟩, hreported⟩
      show lastVersionAfter store.lastRemoteSnapshotVersion event = _
      rw [h.snapshot]
      rfl

/-- A store, and somebody who has a copy of the documents that exist and is told
of the changes only. -/
structure Followed where
  store : LocalStore
  copy : DocumentKey → Option MaybeDocument

/-- The changed documents, as far as they exist, over the copy. -/
def follow (copy : DocumentKey → Option MaybeDocument) (changes : DocumentMap) :
    DocumentKey → Option MaybeDocument := fun key =>
  match changes.find key with
  | some doc => existing (some doc)
  | none => copy key

/-- The store does an operation and reports it. -/
def Followed.step (x : Followed) (event : StoreEvent) : Except Crash Followed :=
  (event.run x.store).bind fun r => .ok ⟨r.2, follow x.copy r.1⟩

/-- The copy is right. -/
structure InStep (x : Followed) (p : Progress) : Prop where
  store : At x.store p
  copy : ∀ key, x.copy key = existing (x.store.view p.pending key)

/-- **Runs.**  In a run of writes of the app, answers, snapshots and rejected limbo
resolutions no operation fails, and whoever follows the reports has the documents
of the store all the time. -/
theorem reported_run {x : Followed} {p : Progress} (h : InStep x p) {events : List StoreEvent}
    (hevents : Along StoreEvent.next (fun p event => event.Allowed p) p events) :
    ∃ x', exec (halting Followed.step) (.ok x) events = .ok x' ∧
      InStep x' (exec StoreEvent.next p events) := by
  refine exec_halting_simulates ?_ h hevents
  intro x p event hx hevent
  obtain ⟨changes, store', hrun, hat, hreported⟩ := run_reported hx.store hevent
  refine ⟨⟨store', follow x.copy changes⟩, ?_, hat, ?_⟩
  · rw [Followed.step, hrun]
    rfl
  · intro key
    rw [hreported key]
    show follow x.copy changes key = _
    unfold follow
    split
    · rfl
    · exact hx.copy key

/-- A clue arrives, is found, and the backend learns of it; then the app may not read
it any more. -/
def findClue : List StoreEvent :=
  [ .snapshot ⟨1, [⟨clueKey "Clue1", .document (ObjectValue.ofList
      [("Locked", .bool true), ("number", .number 1)]) 1 .kSynced⟩]⟩,
    .write [toMutation (.updateData (clueKey "Clue1") "Locked" (.bool false))],
    .acknowledge ⟨⟨1, [toMutation (.updateData (clueKey "Clue1") "Locked" (.bool false))]⟩,
      2, [2]⟩,
    .snapshot ⟨0, [⟨clueKey "Clue1", .noDocument 0 false⟩]⟩ ]

theorem allowed_findClue :
    Along StoreEvent.next (fun p event => event.Allowed p) Progress.none findClue := by
  refine ⟨⟨by decide, by decide, List.pairwise_singleton _ _⟩, ⟨List.cons_ne_nil _ _, ?_⟩,
    ⟨rfl, rfl⟩, ⟨by decide, by decide, List.pairwise_singleton _ _⟩, trivial⟩
  intro m hm
  cases List.mem_singleton.mp hm
  exact fromApp_toMutation _

theorem reported_run_findClue : ∃ x',
    exec (halting Followed.step) (.ok ⟨LocalStore.fresh, fun _ => none⟩) findClue = .ok x' ∧
      InStep x' (exec StoreEvent.next Progress.none findClue) :=
  reported_run ⟨⟨LevelDbMutationQueue.opened_represents, rfl⟩, fun _ => rfl⟩ allowed_findClue

end ValentinesDay.Ports.StoreChanges
