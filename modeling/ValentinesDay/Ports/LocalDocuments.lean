import ValentinesDay.Ports.QueueAgreement

/-!
# The local store of the Firestore client

What the app is shown comes from here: documents as the backend last sent them
(`RemoteDocumentCache`), with the mutations of the queue applied on top
(`LocalDocumentsView`).  The operations are those the sync engine calls; on the
app's settings both parts are in LevelDB.

## Main results

* `getDocument_ok`, `getDocuments_ok` — the view of a document is the cached
  document under the mutations of the queue that are of it.
-/

namespace ValentinesDay.Ports.LocalDocuments

open ValentinesDay.Verified.OrderedTable
open ValentinesDay.Ports.Runtime
open ValentinesDay.Ports.Firestore
open ValentinesDay.Ports.Mutations
open ValentinesDay.Ports.MutationQueue

/-! ## Maps of documents -/

/-- A row of a map from keys to documents. -/
structure KeyedDocument where
  key : DocumentKey
  document : MaybeDocument
  deriving DecidableEq

/-- A sorted map from keys to documents. -/
abbrev DocumentMap := Table fun e : KeyedDocument => e.key.path

/-- `map.get(key)`. -/
def DocumentMap.find (docs : DocumentMap) (key : DocumentKey) : Option MaybeDocument :=
  (docs.get key.path).map (·.document)

theorem documentKey_ext {key key' : DocumentKey} (h : key.path = key'.path) : key = key' := by
  cases key
  cases key'
  cases h
  rfl

/-- The order of the keys of a `DocumentKeySet`. -/
def KeyLE (key key' : DocumentKey) : Prop := key.path ≤ key'.path

instance : DecidableRel KeyLE :=
  fun key key' => inferInstanceAs (Decidable (key.path ≤ key'.path))

instance : IsTrans DocumentKey KeyLE := ⟨fun _ _ _ => le_trans⟩

instance : Std.Antisymm KeyLE := ⟨fun _ _ h h' => documentKey_ext (le_antisymm h h')⟩

instance : Std.Total KeyLE := ⟨fun _ _ => le_total _ _⟩

theorem DocumentMap.find_eq_some_iff {docs : DocumentMap} {key : DocumentKey}
    {doc : MaybeDocument} : docs.find key = some doc ↔ ⟨key, doc⟩ ∈ docs.rows := by
  unfold DocumentMap.find
  simp only [Option.map_eq_some_iff, Table.get_eq_some_iff]
  constructor
  · rintro ⟨⟨key', doc'⟩, ⟨hmem, hkey⟩, rfl⟩
    cases documentKey_ext hkey
    exact hmem
  · intro hmem
    exact ⟨_, ⟨hmem, rfl⟩, rfl⟩

theorem find_put (docs : DocumentMap) (key : DocumentKey) (doc : MaybeDocument)
    (key' : DocumentKey) : DocumentMap.find (docs.put ⟨key, doc⟩) key' =
      if key' = key then some doc else docs.find key' := by
  unfold DocumentMap.find
  rw [Table.get_put]
  by_cases hkey : key' = key
  · rw [if_pos (congrArg DocumentKey.path hkey), if_pos hkey]
    rfl
  · rw [if_neg fun h => hkey (documentKey_ext h), if_neg hkey]

theorem find_delete (docs : DocumentMap) (key key' : DocumentKey) :
    DocumentMap.find (docs.delete key.path) key' =
      if key' = key then none else docs.find key' := by
  unfold DocumentMap.find
  rw [Table.get_delete]
  by_cases hkey : key' = key
  · rw [if_pos (congrArg DocumentKey.path hkey), if_pos hkey]
    rfl
  · rw [if_neg fun h => hkey (documentKey_ext h), if_neg hkey]

@[simp] theorem find_empty (key : DocumentKey) :
    DocumentMap.find Table.empty key = none := rfl

/-! ## The cache of remote documents -/

/-- A row of the index of read times. -/
structure ReadTime where
  collectionPath : ResourcePath
  readTime : Nat
  documentId : String
  deriving DecidableEq

/-- `LevelDbRemoteDocumentReadTimeKey`: by collection, read time and ID. -/
def ReadTime.order (r : ReadTime) : List String ×ₗ Nat ×ₗ String :=
  toLex (r.collectionPath, toLex (r.readTime, r.documentId))

/-- `LevelDbRemoteDocumentCache`, with the rows of its two tables. -/
structure RemoteDocumentCache where
  documents : DocumentMap
  readTimes : Table ReadTime.order

namespace RemoteDocumentCache

variable (cache : RemoteDocumentCache)

/-- `Add`: the document and a row of the index; rows of earlier reads stay. -/
def add (key : DocumentKey) (document : MaybeDocument) (readTime : Nat) :
    RemoteDocumentCache where
  documents := cache.documents.put ⟨key, document⟩
  readTimes := cache.readTimes.put
    ⟨key.path.dropLast, readTime, key.path.getLast?.getD ""⟩

/-- `Remove`: the rows of the index stay. -/
def remove (key : DocumentKey) : RemoteDocumentCache :=
  { cache with documents := cache.documents.delete key.path }

/-- `Get`. -/
def get (key : DocumentKey) : Option MaybeDocument := cache.documents.find key

end RemoteDocumentCache

/-! ## The store -/

/-- `LocalStore`, with the version of the last snapshot that the target cache
has. -/
structure LocalStore where
  mutationQueue : LevelDbMutationQueue
  remoteDocumentCache : RemoteDocumentCache
  lastRemoteSnapshotVersion : Nat

/-- On a fresh installation. -/
def LocalStore.fresh : LocalStore where
  mutationQueue := .opened
  remoteDocumentCache := ⟨Table.empty, Table.empty⟩
  lastRemoteSnapshotVersion := 0

/-- `ApplyToLocalDocument`. -/
def applyToLocalDocument (key : DocumentKey) (doc : Option MaybeDocument)
    (batch : MutationBatch) : Option MaybeDocument :=
  batch.mutations.foldl
    (fun doc m => if m.key = key then m.applyToLocalView doc else doc) doc

/-- `ApplyToRemoteDocument`, with the version of each mutation's result. -/
def applyToRemoteDocument (key : DocumentKey) (doc : Option MaybeDocument)
    (batch : MutationBatch) (versions : List Nat) : Except Crash (Option MaybeDocument) :=
  if versions.length ≠ batch.mutations.length then
    .error (.hardAssert "Mismatch between mutations length and results length")
  else
    .ok ((batch.mutations.zip versions).foldl
      (fun doc e => if e.1.key = key then some (e.1.applyToRemoteDocument doc e.2) else doc)
      doc)

/-- `ApplyToLocalDocumentSet`: the batch is applied for each of its mutations. -/
def applyToLocalDocumentSet (batch : MutationBatch) (documents : DocumentMap) : DocumentMap :=
  batch.mutations.foldl (fun docs m =>
    match applyToLocalDocument m.key (docs.find m.key) batch with
    | some doc => docs.put ⟨m.key, doc⟩
    | none => docs) documents

/-- `keys` of a batch. -/
def keys (batch : MutationBatch) : List DocumentKey :=
  (batch.mutations.map (·.key)).dedup

namespace LocalStore

variable (store : LocalStore)

/-! ### `LocalDocumentsView` -/

/-- `GetDocument`. -/
def getDocument (key : DocumentKey) : Except Crash (Option MaybeDocument) :=
  (store.mutationQueue.allMutationBatchesAffectingDocumentKeys [key]).bind fun batches =>
    .ok (batches.foldl (applyToLocalDocument key) (store.remoteDocumentCache.get key))

/-- `GetLocalViewOfDocuments`; a key without document stands for a document that
does not exist. -/
def getLocalViewOfDocuments (baseDocs : List (DocumentKey × Option MaybeDocument)) :
    Except Crash DocumentMap :=
  (store.mutationQueue.allMutationBatchesAffectingDocumentKeys (baseDocs.map (·.1))).bind
    fun batches => .ok (baseDocs.foldl (fun results e =>
      results.put ⟨e.1, (batches.foldl (applyToLocalDocument e.1) e.2).getD
        (.noDocument 0 false)⟩) Table.empty)

/-- `GetDocuments`. -/
def getDocuments (keys : List DocumentKey) : Except Crash DocumentMap :=
  store.getLocalViewOfDocuments
    (keys.map fun key => (key, store.remoteDocumentCache.get key))

/-! ### What the sync engine calls -/

/-- `WriteLocally`: the new batch and the documents it changes. -/
def writeLocally (mutations : List Mutation) :
    Except Crash (MutationBatch × DocumentMap × LocalStore) :=
  let keys := (mutations.map (·.key)).dedup
  (store.getDocuments keys).bind fun existing =>
    (store.mutationQueue.addMutationBatch mutations).bind fun r =>
      .ok (r.1, applyToLocalDocumentSet r.1 existing, { store with mutationQueue := r.2 })

/-- A result of the backend for a batch: the commit version, and a version for
each mutation. -/
structure MutationBatchResult where
  batch : MutationBatch
  commitVersion : Nat
  versions : List Nat

/-- `docVersions`: for each document the version of its last mutation. -/
def docVersion (result : MutationBatchResult) (key : DocumentKey) : Option Nat :=
  ((result.batch.mutations.zip result.versions).filter fun e => e.1.key = key).getLast?.map
    (·.2)

/-- One document of `ApplyBatchResult`. -/
def applyResultTo (result : MutationBatchResult) (cache : RemoteDocumentCache)
    (key : DocumentKey) : Except Crash RemoteDocumentCache :=
  match docVersion result key with
  | none => .error (.hardAssert "doc_versions should contain every doc in the write.")
  | some ackVersion =>
      let remoteDoc := cache.get key
      if ∀ doc ∈ remoteDoc, doc.version < ackVersion then
        (applyToRemoteDocument key remoteDoc result.batch result.versions).bind fun doc =>
          match doc with
          | none =>
              if remoteDoc = none then .ok cache
              else .error (.hardAssert "Mutation batch applied to document resulted in nullopt.")
          | some doc => .ok (cache.add key doc result.commitVersion)
      else .ok cache

/-- `ApplyBatchResult`. -/
def applyBatchResult (result : MutationBatchResult) : Except Crash LocalStore :=
  ((keys result.batch).foldlM (applyResultTo result) store.remoteDocumentCache).bind
    fun cache =>
      (store.mutationQueue.removeMutationBatch result.batch).bind fun queue =>
        .ok { store with mutationQueue := queue, remoteDocumentCache := cache }

/-- `AcknowledgeBatch`. -/
def acknowledgeBatch (result : MutationBatchResult) :
    Except Crash (DocumentMap × LocalStore) :=
  (store.applyBatchResult result).bind fun store' =>
    store'.mutationQueue.performConsistencyCheck.bind fun _ =>
      (store'.getDocuments (keys result.batch)).bind fun changes => .ok (changes, store')

/-- `RejectBatch`. -/
def rejectBatch (batchId : Nat) : Except Crash (DocumentMap × LocalStore) :=
  match store.mutationQueue.lookupMutationBatch batchId with
  | none => .error (.hardAssert "Attempt to reject nonexistent batch!")
  | some toReject =>
      (store.mutationQueue.removeMutationBatch toReject).bind fun queue =>
        let store' := { store with mutationQueue := queue }
        queue.performConsistencyCheck.bind fun _ =>
          (store'.getDocuments (keys toReject)).bind fun changes => .ok (changes, store')

/-- Documents of a `RemoteEvent`, with its snapshot version. -/
structure RemoteEvent where
  snapshotVersion : Nat
  documentUpdates : List KeyedDocument

/-- Made up for a document the client may not read. -/
def isManufactured : MaybeDocument → Bool
  | .noDocument version _ => version = 0
  | _ => false

/-- One document of `ApplyRemoteEvent`: what becomes of the cache, and whether
the document changed. -/
def applyUpdate (snapshotVersion : Nat) (cache : RemoteDocumentCache) (e : KeyedDocument) :
    Except Crash (RemoteDocumentCache × Bool) :=
  if isManufactured e.document then .ok (cache.remove e.key, true)
  else if ∀ existing ∈ cache.get e.key, e.document.version > existing.version ∨
      e.document.version = existing.version ∧ existing.hasPendingWrites then
    if snapshotVersion = 0 then
      .error (.hardAssert "Cannot add a document when the remote version is zero")
    else .ok (cache.add e.key e.document snapshotVersion, true)
  else .ok (cache, false)

/-- The documents of `ApplyRemoteEvent`, and those that changed. -/
def applyUpdates (snapshotVersion : Nat) :
    RemoteDocumentCache → List KeyedDocument →
      Except Crash (RemoteDocumentCache × List KeyedDocument)
  | cache, [] => .ok (cache, [])
  | cache, e :: es =>
      (applyUpdate snapshotVersion cache e).bind fun r =>
        (applyUpdates snapshotVersion r.1 es).bind fun rest =>
          .ok (rest.1, if r.2 then e :: rest.2 else rest.2)

/-- `ApplyRemoteEvent`. -/
def applyRemoteEvent (event : RemoteEvent) : Except Crash (DocumentMap × LocalStore) :=
  (applyUpdates event.snapshotVersion store.remoteDocumentCache event.documentUpdates).bind
    fun r =>
      if event.snapshotVersion ≠ 0 ∧
          event.snapshotVersion < store.lastRemoteSnapshotVersion then
        .error (.hardAssert "Watch stream reverted to previous snapshot??")
      else
        let store' := { store with
          remoteDocumentCache := r.1
          lastRemoteSnapshotVersion :=
            if event.snapshotVersion = 0 then store.lastRemoteSnapshotVersion
            else event.snapshotVersion }
        (store'.getLocalViewOfDocuments (r.2.map fun e => (e.key, some e.document))).bind
          fun changes => .ok (changes, store')

end LocalStore

/-! ## The view of one document -/

section View

variable {key : DocumentKey}

theorem applyToLocalDocument_of_not_affects {batch : MutationBatch}
    (h : batch.affects key = false) (doc : Option MaybeDocument) :
    applyToLocalDocument key doc batch = doc := by
  have hne : ∀ m ∈ batch.mutations, m.key ≠ key := by
    simpa [MutationBatch.affects] using h
  have hfold : ∀ ms : List Mutation, (∀ m ∈ ms, m.key ≠ key) →
      ms.foldl (fun doc m => if m.key = key then m.applyToLocalView doc else doc) doc =
        doc := by
    intro ms hms
    induction ms with
    | nil => rfl
    | cons m ms ih =>
        obtain ⟨hm, hrest⟩ := List.forall_mem_cons.mp hms
        rw [List.foldl_cons, if_neg hm]
        exact ih hrest
  exact hfold batch.mutations hne

/-- Batches that are not of the document can be left out, or put in. -/
theorem foldl_filter_affecting {p : MutationBatch → Bool} {batches : List MutationBatch}
    (hp : ∀ b ∈ batches, b.affects key = true → p b = true) (doc : Option MaybeDocument) :
    (batches.filter p).foldl (applyToLocalDocument key) doc =
      batches.foldl (applyToLocalDocument key) doc := by
  induction batches generalizing doc with
  | nil => rfl
  | cons b rest ih =>
      obtain ⟨hb, hrest⟩ := List.forall_mem_cons.mp hp
      cases hpb : p b with
      | true => rw [List.filter_cons_of_pos hpb, List.foldl_cons, List.foldl_cons, ih hrest]
      | false =>
          have hnot : b.affects key = false := by
            cases haffects : b.affects key with
            | false => rfl
            | true => exact absurd (hb haffects) (by simp [hpb])
          rw [List.filter_cons_of_neg (by simp [hpb]), List.foldl_cons, ih hrest,
            applyToLocalDocument_of_not_affects hnot]

/-- The mutations of the queue that are of the document, one after the other. -/
theorem foldl_applyToLocalDocument (batches : List MutationBatch)
    (doc : Option MaybeDocument) :
    batches.foldl (applyToLocalDocument key) doc =
      (batches.flatMap (·.mutations)).foldl
        (fun doc m => if m.key = key then m.applyToLocalView doc else doc) doc := by
  induction batches generalizing doc with
  | nil => rfl
  | cons b rest ih => rw [List.foldl_cons, ih, List.flatMap_cons, List.foldl_append]; rfl

theorem dataOf_foldl {ms : List Mutation} (hms : ∀ m ∈ ms, m.OfApi)
    (doc : Option MaybeDocument) :
    dataOf (ms.foldl (fun doc m => if m.key = key then m.applyToLocalView doc else doc)
      doc) = ms.foldl (Mutation.actAt key) (dataOf doc) := by
  induction ms generalizing doc with
  | nil => rfl
  | cons m ms ih =>
      obtain ⟨hm, hrest⟩ := List.forall_mem_cons.mp hms
      rw [List.foldl_cons, List.foldl_cons, ih hrest]
      by_cases hkey : m.key = key
      · rw [if_pos hkey, dataOf_applyToLocalView hm, Mutation.actAt_self hkey]
      · rw [if_neg hkey, Mutation.actAt_ne hkey]

end View

/-- What the app is shown of a document: the cached one under the queue. -/
def LocalStore.view (store : LocalStore) (s : PendingBatches) (key : DocumentKey) :
    Option MaybeDocument :=
  s.batches.foldl (applyToLocalDocument key) (store.remoteDocumentCache.get key)

section Reads

variable {store : LocalStore} {s : PendingBatches}

theorem getDocument_ok (h : store.mutationQueue.Represents s) (key : DocumentKey) :
    store.getDocument key = .ok (store.view s key) := by
  rw [LocalStore.getDocument, h.ofKeys]
  refine congrArg Except.ok (foldl_filter_affecting ?_ _)
  intro b _ haffects
  simpa using haffects

/-- Every key asked for is in the map, with its view over the given base. -/
theorem getLocalViewOfDocuments_ok (h : store.mutationQueue.Represents s)
    (baseDocs : List (DocumentKey × Option MaybeDocument)) :
    store.getLocalViewOfDocuments baseDocs =
      .ok (baseDocs.foldl (fun results e =>
        results.put ⟨e.1, (s.batches.foldl (applyToLocalDocument e.1) e.2).getD
          (.noDocument 0 false)⟩) Table.empty) := by
  rw [LocalStore.getLocalViewOfDocuments, h.ofKeys]
  refine congrArg Except.ok (List.foldl_ext _ _ _ ?_)
  intro results e he
  have hfilter : (s.batches.filter fun b => (baseDocs.map (·.1)).any b.affects).foldl
      (applyToLocalDocument e.1) e.2 = s.batches.foldl (applyToLocalDocument e.1) e.2 := by
    refine foldl_filter_affecting ?_ e.2
    intro b _ haffects
    exact List.any_eq_true.mpr ⟨e.1, List.mem_map_of_mem he, haffects⟩
  rw [hfilter]

theorem find_foldl_put (f : DocumentKey → MaybeDocument) (ks : List DocumentKey)
    (docs : DocumentMap) (key : DocumentKey) :
    DocumentMap.find (ks.foldl (fun docs k => docs.put ⟨k, f k⟩) docs) key =
      if key ∈ ks then some (f key) else docs.find key := by
  induction ks generalizing docs with
  | nil => simp
  | cons k ks ih =>
      rw [List.foldl_cons, ih, find_put]
      by_cases hks : key ∈ ks
      · rw [if_pos hks, if_pos (List.mem_cons_of_mem k hks)]
      · by_cases hk : key = k
        · subst hk
          rw [if_neg hks, if_pos rfl, if_pos List.mem_cons_self]
        · rw [if_neg hks, if_neg hk, if_neg (by simp [hk, hks])]

theorem getDocuments_ok (h : store.mutationQueue.Represents s) (ks : List DocumentKey) :
    ∃ docs, store.getDocuments ks = .ok docs ∧ ∀ key, docs.find key =
      if key ∈ ks then some ((store.view s key).getD (.noDocument 0 false)) else none := by
  refine ⟨_, getLocalViewOfDocuments_ok h _, ?_⟩
  intro key
  rw [List.foldl_map]
  exact find_foldl_put (fun k => (store.view s k).getD (.noDocument 0 false)) ks _ key

end Reads

/-! ## What the operations of the sync engine do -/

theorem get_add (cache : RemoteDocumentCache) (key : DocumentKey) (doc : MaybeDocument)
    (readTime : Nat) (key' : DocumentKey) :
    (cache.add key doc readTime).get key' = if key' = key then some doc else cache.get key' :=
  find_put cache.documents key doc key'

theorem get_remove (cache : RemoteDocumentCache) (key key' : DocumentKey) :
    (cache.remove key).get key' = if key' = key then none else cache.get key' :=
  find_delete cache.documents key key'

section Queue

variable {store : LocalStore} {s : PendingBatches}

theorem writeLocally_ok (h : store.mutationQueue.Represents s) {mutations : List Mutation}
    (hne : mutations ≠ []) : ∃ changed queue,
      store.writeLocally mutations =
        .ok (⟨s.next, mutations⟩, changed, { store with mutationQueue := queue }) ∧
      queue.Represents (s.push mutations hne) := by
  obtain ⟨docs, hdocs, -⟩ := getDocuments_ok h (mutations.map (·.key)).dedup
  obtain ⟨queue, hadd, hrep⟩ := h.add hne
  have hok : ∃ changed, store.writeLocally mutations =
      .ok (⟨s.next, mutations⟩, changed, { store with mutationQueue := queue }) := by
    rw [LocalStore.writeLocally, hdocs]
    show ∃ changed, (store.mutationQueue.addMutationBatch mutations).bind _ = _
    rw [hadd]
    exact ⟨_, rfl⟩
  obtain ⟨changed, hchanged⟩ := hok
  exact ⟨changed, queue, hchanged, hrep⟩

theorem lookup_front (h : store.mutationQueue.Represents s) {batch : MutationBatch}
    (hb : s.batches.head? = some batch) :
    store.mutationQueue.lookupMutationBatch batch.batchId = some batch := by
  rw [LevelDbMutationQueue.lookupMutationBatch, Table.get_eq_some_iff, h.rows]
  exact ⟨List.mem_of_mem_head? hb, rfl⟩

theorem rejectBatch_ok (h : store.mutationQueue.Represents s) {batch : MutationBatch}
    (hb : s.batches.head? = some batch) : ∃ changes queue,
      store.rejectBatch batch.batchId =
        .ok (changes, { store with mutationQueue := queue }) ∧
      queue.Represents s.pop := by
  obtain ⟨queue, hremove, hrep⟩ := h.remove hb
  have hrep' : ({ store with mutationQueue := queue } : LocalStore).mutationQueue.Represents
      s.pop := hrep
  obtain ⟨docs, hdocs, -⟩ := getDocuments_ok hrep' (keys batch)
  refine ⟨docs, queue, ?_, hrep⟩
  rw [LocalStore.rejectBatch, lookup_front h hb]
  show (store.mutationQueue.removeMutationBatch batch).bind _ = _
  rw [hremove]
  show queue.performConsistencyCheck.bind _ = _
  rw [hrep.consistent]
  show (LocalStore.getDocuments { store with mutationQueue := queue } (keys batch)).bind _ = _
  rw [hdocs]
  rfl

end Queue

/-! ### Acknowledged documents -/

section Acknowledge

variable {result : LocalStore.MutationBatchResult}

/-- What becomes of a cached document when a batch is acknowledged. -/
def acknowledged (result : LocalStore.MutationBatchResult) (key : DocumentKey)
    (doc : Option MaybeDocument) : Option MaybeDocument :=
  match LocalStore.docVersion result key with
  | none => doc
  | some ackVersion =>
      if ∀ d ∈ doc, d.version < ackVersion then
        (result.batch.mutations.zip result.versions).foldl
          (fun doc e => if e.1.key = key then some (e.1.applyToRemoteDocument doc e.2)
            else doc) doc
      else doc

theorem docVersion_eq_none_iff (hlength : result.versions.length = result.batch.mutations.length)
    {key : DocumentKey} :
    LocalStore.docVersion result key = none ↔ result.batch.affects key = false := by
  have hfst : (result.batch.mutations.zip result.versions).map (·.1) =
      result.batch.mutations := List.map_fst_zip hlength.ge
  rw [LocalStore.docVersion, Option.map_eq_none_iff, List.getLast?_eq_none_iff,
    List.filter_eq_nil_iff, MutationBatch.affects, List.any_eq_false]
  constructor
  · intro h m hm
    rw [← hfst] at hm
    obtain ⟨e, he, rfl⟩ := List.mem_map.mp hm
    exact h e he
  · intro h e he
    exact h e.1 (hfst ▸ List.mem_map_of_mem he)

/-- A document of an acknowledged batch is there afterwards. -/
theorem isSome_foldl_applyToRemoteDocument {key : DocumentKey}
    {es : List (Mutation × Nat)} (h : ∃ e ∈ es, e.1.key = key) (doc : Option MaybeDocument) :
    (es.foldl (fun doc e => if e.1.key = key then some (e.1.applyToRemoteDocument doc e.2)
      else doc) doc).isSome := by
  have hkeep : ∀ (es : List (Mutation × Nat)) (doc : Option MaybeDocument), doc.isSome →
      (es.foldl (fun doc e => if e.1.key = key then some (e.1.applyToRemoteDocument doc e.2)
        else doc) doc).isSome := by
    intro es
    induction es with
    | nil => exact fun _ hdoc => hdoc
    | cons e es ih =>
        intro doc hdoc
        rw [List.foldl_cons]
        refine ih _ ?_
        split
        · rfl
        · exact hdoc
  induction es generalizing doc with
  | nil =>
      obtain ⟨e, he, -⟩ := h
      cases he
  | cons e es ih =>
      rw [List.foldl_cons]
      by_cases hkey : e.1.key = key
      · rw [if_pos hkey]
        exact hkeep es _ rfl
      · rw [if_neg hkey]
        refine ih ?_ doc
        obtain ⟨e', he', hkey'⟩ := h
        rcases List.mem_cons.mp he' with rfl | hes
        · exact absurd hkey' hkey
        · exact ⟨e', hes, hkey'⟩

theorem applyResultTo_ok (hlength : result.versions.length = result.batch.mutations.length)
    (cache : RemoteDocumentCache) {key : DocumentKey} (hkey : result.batch.affects key) :
    ∃ cache', LocalStore.applyResultTo result cache key = .ok cache' ∧
      ∀ key', cache'.get key' =
        if key' = key then acknowledged result key (cache.get key) else cache.get key' := by
  unfold LocalStore.applyResultTo acknowledged
  cases hversion : LocalStore.docVersion result key with
  | none => exact absurd hkey (by simp [(docVersion_eq_none_iff hlength).mp hversion])
  | some ackVersion =>
      by_cases hnewer : ∀ d ∈ cache.get key, d.version < ackVersion
      · simp only [if_pos hnewer]
        rw [applyToRemoteDocument, if_neg (by simp [hlength])]
        obtain ⟨m, hm, hmkey⟩ := affects_iff.mp hkey
        have hfst : (result.batch.mutations.zip result.versions).map (·.1) =
            result.batch.mutations := List.map_fst_zip hlength.ge
        rw [← hfst] at hm
        obtain ⟨e, he, rfl⟩ := List.mem_map.mp hm
        obtain ⟨doc, hdoc⟩ := Option.isSome_iff_exists.mp
          (isSome_foldl_applyToRemoteDocument ⟨e, he, hmkey⟩ (cache.get key))
        rw [hdoc]
        exact ⟨_, rfl, fun key' => get_add cache key doc _ key'⟩
      · simp only [if_neg hnewer]
        refine ⟨cache, rfl, ?_⟩
        intro key'
        split
        · next heq => rw [heq]
        · rfl

theorem foldlM_applyResultTo_ok
    (hlength : result.versions.length = result.batch.mutations.length)
    {ks : List DocumentKey} (hks : ∀ key ∈ ks, result.batch.affects key) (hnodup : ks.Nodup)
    (cache : RemoteDocumentCache) :
    ∃ cache', ks.foldlM (LocalStore.applyResultTo result) cache = .ok cache' ∧
      ∀ key, cache'.get key =
        if key ∈ ks then acknowledged result key (cache.get key) else cache.get key := by
  induction ks generalizing cache with
  | nil => exact ⟨cache, rfl, fun key => (if_neg List.not_mem_nil).symm⟩
  | cons k ks ih =>
      obtain ⟨hk, hrest⟩ := List.forall_mem_cons.mp hks
      obtain ⟨hfresh, hnodup'⟩ := List.nodup_cons.mp hnodup
      obtain ⟨cache₁, hcache₁, hget₁⟩ := applyResultTo_ok hlength cache hk
      obtain ⟨cache₂, hcache₂, hget₂⟩ := ih hrest hnodup' cache₁
      refine ⟨cache₂, ?_, ?_⟩
      · rw [List.foldlM_cons, hcache₁]
        exact hcache₂
      · intro key
        rw [hget₂, hget₁]
        by_cases hkey : key = k
        · subst hkey
          rw [if_neg hfresh, if_pos rfl, if_pos List.mem_cons_self]
        · have hmem : key ∈ k :: ks ↔ key ∈ ks := by simp [hkey]
          simp only [if_neg hkey, hmem]

theorem mem_keys {batch : MutationBatch} {key : DocumentKey} :
    key ∈ keys batch ↔ batch.affects key := by
  rw [keys, List.mem_dedup, List.mem_map, affects_iff]

theorem acknowledgeBatch_ok {store : LocalStore} {s : PendingBatches}
    (h : store.mutationQueue.Represents s) (hb : s.batches.head? = some result.batch)
    (hlength : result.versions.length = result.batch.mutations.length) :
    ∃ changes queue cache,
      store.acknowledgeBatch result = .ok (changes, { store with
        mutationQueue := queue, remoteDocumentCache := cache }) ∧
      queue.Represents s.pop ∧
      ∀ key, cache.get key =
        if result.batch.affects key then
          acknowledged result key (store.remoteDocumentCache.get key)
        else store.remoteDocumentCache.get key := by
  have hks : ∀ key ∈ keys result.batch, result.batch.affects key :=
    fun key hkey => mem_keys.mp hkey
  obtain ⟨cache, hcache, hget⟩ := foldlM_applyResultTo_ok hlength hks (List.nodup_dedup _)
    store.remoteDocumentCache
  obtain ⟨queue, hremove, hrep⟩ := h.remove hb
  have hrep' : ({ store with mutationQueue := queue, remoteDocumentCache := cache } :
      LocalStore).mutationQueue.Represents s.pop := hrep
  obtain ⟨docs, hdocs, -⟩ := getDocuments_ok hrep' (keys result.batch)
  refine ⟨docs, queue, cache, ?_, hrep, ?_⟩
  · rw [LocalStore.acknowledgeBatch, LocalStore.applyBatchResult, hcache]
    show ((store.mutationQueue.removeMutationBatch result.batch).bind _).bind _ = _
    rw [hremove]
    show queue.performConsistencyCheck.bind _ = _
    rw [hrep.consistent]
    show (LocalStore.getDocuments { store with
      mutationQueue := queue, remoteDocumentCache := cache } (keys result.batch)).bind _ = _
    rw [hdocs]
    rfl
  · intro key
    rw [hget]
    simp only [mem_keys]

end Acknowledge

/-! ### Documents of a snapshot -/

/-- What becomes of a cached document when the backend sends a version of it. -/
def updated (doc : Option MaybeDocument) (sent : MaybeDocument) : Option MaybeDocument :=
  if LocalStore.isManufactured sent then none
  else if ∀ existing ∈ doc, sent.version > existing.version ∨
      sent.version = existing.version ∧ existing.hasPendingWrites then some sent
  else doc

theorem applyUpdate_ok {snapshotVersion : Nat} (hne : snapshotVersion ≠ 0)
    (cache : RemoteDocumentCache) (e : KeyedDocument) :
    ∃ cache' changed,
      LocalStore.applyUpdate snapshotVersion cache e = .ok (cache', changed) ∧
      ∀ key, cache'.get key =
        if key = e.key then updated (cache.get key) e.document else cache.get key := by
  unfold LocalStore.applyUpdate updated
  by_cases hmanufactured : LocalStore.isManufactured e.document
  · refine ⟨cache.remove e.key, true, if_pos hmanufactured, ?_⟩
    intro key
    rw [get_remove, if_pos hmanufactured]
  · rw [if_neg hmanufactured]
    by_cases hnewer : ∀ existing ∈ cache.get e.key,
        e.document.version > existing.version ∨
          e.document.version = existing.version ∧ existing.hasPendingWrites
    · rw [if_pos hnewer, if_neg hne]
      refine ⟨_, true, rfl, ?_⟩
      intro key
      rw [get_add]
      by_cases hkey : key = e.key
      · subst hkey
        rw [if_pos rfl, if_pos rfl, if_neg hmanufactured, if_pos hnewer]
      · rw [if_neg hkey, if_neg hkey]
    · rw [if_neg hnewer]
      refine ⟨cache, false, rfl, ?_⟩
      intro key
      by_cases hkey : key = e.key
      · subst hkey
        rw [if_pos rfl, if_neg hmanufactured, if_neg hnewer]
      · rw [if_neg hkey]

theorem applyUpdates_ok {snapshotVersion : Nat} (hne : snapshotVersion ≠ 0)
    (cache : RemoteDocumentCache) (es : List KeyedDocument) :
    ∃ cache' changed,
      LocalStore.applyUpdates snapshotVersion cache es = .ok (cache', changed) ∧
      ∀ key, cache'.get key =
        (es.filter fun e => e.key = key).foldl (fun doc e => updated doc e.document)
          (cache.get key) := by
  induction es generalizing cache with
  | nil => exact ⟨cache, [], rfl, fun _ => rfl⟩
  | cons e es ih =>
      obtain ⟨cache₁, changed, hcache₁, hget₁⟩ := applyUpdate_ok hne cache e
      obtain ⟨cache₂, rest, hcache₂, hget₂⟩ := ih cache₁
      refine ⟨cache₂, if changed then e :: rest else rest, ?_, ?_⟩
      · rw [LocalStore.applyUpdates, hcache₁]
        show (LocalStore.applyUpdates snapshotVersion cache₁ es).bind _ = _
        rw [hcache₂]
        rfl
      · intro key
        rw [hget₂, hget₁]
        by_cases hkey : key = e.key
        · subst hkey
          rw [if_pos rfl, List.filter_cons_of_pos (by simp), List.foldl_cons]
        · rw [if_neg hkey, List.filter_cons_of_neg (by simpa using fun h => hkey h.symm)]

theorem applyRemoteEvent_ok {store : LocalStore} {s : PendingBatches}
    (h : store.mutationQueue.Represents s) {event : LocalStore.RemoteEvent}
    (hne : event.snapshotVersion ≠ 0)
    (hlast : store.lastRemoteSnapshotVersion ≤ event.snapshotVersion) :
    ∃ changes cache,
      store.applyRemoteEvent event = .ok (changes, { store with
        remoteDocumentCache := cache
        lastRemoteSnapshotVersion := event.snapshotVersion }) ∧
      ∀ key, cache.get key =
        (event.documentUpdates.filter fun e => e.key = key).foldl
          (fun doc e => updated doc e.document) (store.remoteDocumentCache.get key) := by
  obtain ⟨cache, changed, hcache, hget⟩ :=
    applyUpdates_ok hne store.remoteDocumentCache event.documentUpdates
  have hok : ∃ changes, store.applyRemoteEvent event = .ok (changes, { store with
      remoteDocumentCache := cache
      lastRemoteSnapshotVersion := event.snapshotVersion }) := by
    rw [LocalStore.applyRemoteEvent, hcache]
    have hforward : ¬(event.snapshotVersion ≠ 0 ∧
        event.snapshotVersion < store.lastRemoteSnapshotVersion) := by omega
    simp only [Except.bind, if_neg hforward]
    simp only [if_neg hne]
    rw [getLocalViewOfDocuments_ok (s := s) (by exact h)]
    exact ⟨_, rfl⟩
  obtain ⟨changes, hchanges⟩ := hok
  exact ⟨changes, cache, hchanges, hget⟩

end ValentinesDay.Ports.LocalDocuments
