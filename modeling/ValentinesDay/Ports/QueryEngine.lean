import ValentinesDay.Ports.QueryLimits

/-!
# Collection queries against the local store

A collection query is answered from the cache by a plain scan of the collection
or, once the target of the query has had a snapshot without limbo documents, from
the keys of that snapshot and the documents read later; unless a limit could then
let in documents that are neither.  Either way the mutations of the queue are
applied to what was found; a patch may need a document that was not.

## Main results

* `fullScan` — the plain scan finds the documents whose view matches.
* `documentsMatchingQuery_ok` — a scan since some read time finds these, where it
  looks or the queue tells.
-/

namespace ValentinesDay.Ports.QueryEngine

open ValentinesDay.Verified.OrderedTable
open ValentinesDay.Ports.Runtime
open ValentinesDay.Ports.Firestore
open ValentinesDay.Ports.Mutations
open ValentinesDay.Ports.MutationQueue
open ValentinesDay.Ports.Queries
open ValentinesDay.Ports.LocalDocuments
open ValentinesDay.Ports.DocumentSets
open ValentinesDay.Ports.QueryLimits

universe u

/-! ## What the cache finds -/

section Cache

variable (cache : RemoteDocumentCache)

/-- The scan of a collection: rows of other depths are passed over, and the
first row of its depth outside of it ends the scan. -/
def collectionRows (path : ResourcePath) : List KeyedDocument :=
  ((cache.documents.seek path).filter fun e => e.key.path.length = path.length + 1).takeWhile
    fun e => path.isPrefixOf e.key.path

/-- The paths of the documents read after `sinceReadTime`. -/
def pathsSince (path : ResourcePath) (sinceReadTime : Nat) : List ResourcePath :=
  ((cache.readTimes.scan (toLex (path, toLex (sinceReadTime, ""))) fun r =>
      r.collectionPath = path).filter fun r => r.readTime > sinceReadTime).map
    fun r => path ++ [r.documentId]

/-- `GetMatching`: the existing documents of the collection, all of them or
those read after `sinceReadTime`. -/
def getMatching (query : Query) (sinceReadTime : Nat) : DocumentMap :=
  if sinceReadTime ≠ 0 then
    (pathsSince cache query.path sinceReadTime).foldl (fun results path =>
      match cache.documents.get path with
      | some e => if e.document.isDocument then results.put e else results
      | none => results) Table.empty
  else
    (collectionRows cache query.path).foldl (fun results e =>
      if e.document.isDocument then results.put e else results) Table.empty

end Cache

/-! ## `LocalDocumentsView` -/

section Engine

variable (store : LocalStore)

/-- `missing_doc_keys`: the patched documents that were not found. -/
def missingDocKeys (batches : List MutationBatch) (existing : DocumentMap) :
    List DocumentKey :=
  batches.flatMap fun batch => batch.mutations.filterMap fun m =>
    match m with
    | .patch key _ _ _ => if existing.find key = none then some key else none
    | _ => none

/-- `AddMissingBaseDocuments`. -/
def addMissingBaseDocuments (batches : List MutationBatch) (existing : DocumentMap) :
    DocumentMap :=
  (missingDocKeys batches existing).foldl (fun docs key =>
    match store.remoteDocumentCache.get key with
    | some doc => if doc.isDocument then docs.put ⟨key, doc⟩ else docs
    | none => docs) existing

/-- One mutation of the queue on the results of a collection query. -/
def mutateResults (query : Query) (results : DocumentMap) (m : Mutation) : DocumentMap :=
  if isImmediateParentOf query.path m.key.path then
    match m.applyToLocalView (results.find m.key) with
    | some doc =>
        if doc.isDocument then results.put ⟨m.key, doc⟩ else results.delete m.key.path
    | none => results.delete m.key.path
  else results

/-- The document exists and matches. -/
def matchesEntry (query : Query) (e : KeyedDocument) : Bool :=
  match e.document with
  | .document data _ _ => query.matchesDoc e.key data
  | _ => false

/-- Documents that do not match are erased from the results at last. -/
def keepMatching (query : Query) (results : DocumentMap) : DocumentMap :=
  results.rows.foldl (fun kept e =>
    if matchesEntry query e then kept else kept.delete e.key.path) results

/-- `GetDocumentsMatchingDocumentQuery`. -/
def getDocumentsMatchingDocumentQuery (path : DocumentKey) : Except Crash DocumentMap :=
  (store.getDocument path).bind fun doc => .ok
    (match doc with
    | some doc => if doc.isDocument then Table.empty.put ⟨path, doc⟩ else Table.empty
    | none => Table.empty)

/-- `GetDocumentsMatchingCollectionQuery`. -/
def getDocumentsMatchingCollectionQuery (query : Query) (sinceReadTime : Nat) :
    Except Crash DocumentMap :=
  (store.mutationQueue.allMutationBatchesAffectingQuery query).bind fun batches =>
    let base := addMissingBaseDocuments store batches
      (getMatching store.remoteDocumentCache query sinceReadTime)
    .ok (keepMatching query
      ((batches.flatMap (·.mutations)).foldl (mutateResults query) base))

/-- `LocalDocumentsView::GetDocumentsMatchingQuery`. -/
def documentsMatchingQuery (query : Query) (sinceReadTime : Nat) :
    Except Crash DocumentMap :=
  if h : query.isDocumentQuery then
    getDocumentsMatchingDocumentQuery store ⟨query.path, Query.even_of_isDocumentQuery h⟩
  else getDocumentsMatchingCollectionQuery store query sinceReadTime

/-! ## `QueryEngine` -/

/-- `ExecuteFullCollectionScan`. -/
def executeFullCollectionScan (query : Query) : Except Crash DocumentMap :=
  documentsMatchingQuery store query 0

end Engine

section Snapshot

variable {κ : Type u} [LinearOrder κ] (comparator : DocumentComparator κ)

/-- `ApplyQuery`: the documents that match, in order. -/
def applyQuery (query : Query) (documents : DocumentMap) : DocumentSet comparator :=
  documents.rows.foldl (fun results e => (matching query e).elim results results.insert) .empty

variable {comparator}

/-- `NeedsRefill`: a document of the target does not match any more, or the one at
the edge of the limit may have moved. -/
def needsRefill (limitType : LimitType) (sortedPreviousResults : DocumentSet comparator)
    (remoteKeys : Finset DocumentKey) (limboFreeSnapshotVersion : Nat) : Bool :=
  if remoteKeys.card ≠ sortedPreviousResults.size then true
  else
    (limitEdge limitType sortedPreviousResults).any fun d =>
      d.hasPendingWrites || decide (d.version > limboFreeSnapshotVersion)

variable (comparator)

/-- `GetDocumentsMatchingQuery`, where `comparator` is the comparator of the query. -/
def getDocumentsMatchingQuery (store : LocalStore) (query : Query)
    (lastLimboFreeSnapshotVersion : Nat) (remoteKeys : Finset DocumentKey) :
    Except Crash DocumentMap :=
  if query.matchesAllDocuments then executeFullCollectionScan store query
  else if lastLimboFreeSnapshotVersion = 0 then executeFullCollectionScan store query
  else
    (store.getDocuments (remoteKeys.sort KeyLE)).bind fun documents =>
      let previousResults := applyQuery comparator query documents
      if query.limit.any fun limit =>
          needsRefill limit.type previousResults remoteKeys lastLimboFreeSnapshotVersion then
        executeFullCollectionScan store query
      else
        (documentsMatchingQuery store query lastLimboFreeSnapshotVersion).bind
          fun updatedResults =>
            .ok (previousResults.documents.foldl (fun results d => results.put d.toEntry)
              updatedResults)

end Snapshot

/-! ## Maps built entry by entry -/

/-- The documents that exist. -/
def existing (doc : Option MaybeDocument) : Option MaybeDocument :=
  doc.filter MaybeDocument.isDocument

/-- Entries that agree with `get` are what `get` gives for their keys. -/
theorem find_foldl_put_of_get (get : DocumentKey → Option MaybeDocument)
    {es : List KeyedDocument} (hes : ∀ e ∈ es, get e.key = some e.document)
    (docs : DocumentMap) (key : DocumentKey) :
    DocumentMap.find (es.foldl (fun docs e => docs.put e) docs) key =
      if ∃ e ∈ es, e.key = key then get key else docs.find key := by
  induction es generalizing docs with
  | nil => simp
  | cons e es ih =>
      obtain ⟨he, hrest⟩ := List.forall_mem_cons.mp hes
      rw [List.foldl_cons, ih hrest, find_put]
      by_cases hes : ∃ e' ∈ es, e'.key = key
      · rw [if_pos hes, if_pos ((List.exists_mem_cons_iff ..).mpr (.inr hes))]
      · by_cases hkey : key = e.key
        · subst hkey
          rw [if_neg hes, if_pos rfl, if_pos ⟨e, List.mem_cons_self, rfl⟩, he]
        · have hnot : ¬∃ e' ∈ e :: es, e'.key = key := by
            rw [List.exists_mem_cons_iff]
            exact not_or.mpr ⟨fun h => hkey h.symm, hes⟩
          rw [if_neg hes, if_neg hkey, if_neg hnot]

theorem find_foldl_delete (es : List KeyedDocument) (docs : DocumentMap)
    (key : DocumentKey) :
    DocumentMap.find (es.foldl (fun docs e => docs.delete e.key.path) docs) key =
      if ∃ e ∈ es, e.key = key then none else docs.find key := by
  induction es generalizing docs with
  | nil => simp
  | cons e es ih =>
      rw [List.foldl_cons, ih, find_delete]
      by_cases hes : ∃ e' ∈ es, e'.key = key
      · rw [if_pos hes, if_pos ((List.exists_mem_cons_iff ..).mpr (.inr hes))]
      · by_cases hkey : key = e.key
        · subst hkey
          rw [if_neg hes, if_pos rfl, if_pos ⟨e, List.mem_cons_self, rfl⟩]
        · have hnot : ¬∃ e' ∈ e :: es, e'.key = key := by
            rw [List.exists_mem_cons_iff]
            exact not_or.mpr ⟨fun h => hkey h.symm, hes⟩
          rw [if_neg hes, if_neg hkey, if_neg hnot]

theorem find_keepMatching (query : Query) (results : DocumentMap) (key : DocumentKey) :
    (keepMatching query results).find key =
      (results.find key).filter fun doc => matchesEntry query ⟨key, doc⟩ := by
  have hfold : keepMatching query results =
      (results.rows.filter fun e => !matchesEntry query e).foldl
        (fun kept e => kept.delete e.key.path) results := by
    rw [keepMatching, List.foldl_filter]
    refine List.foldl_ext _ _ _ ?_
    intro kept e _
    cases matchesEntry query e <;> rfl
  rw [hfold, find_foldl_delete]
  cases hfind : results.find key with
  | none => simp
  | some doc =>
      have hmem : ⟨key, doc⟩ ∈ results.rows := DocumentMap.find_eq_some_iff.mp hfind
      cases hmatch : matchesEntry query ⟨key, doc⟩ with
      | true =>
          have hnot : ¬∃ e ∈ results.rows.filter fun e => !matchesEntry query e,
              e.key = key := by
            rintro ⟨e, he, rfl⟩
            obtain ⟨he', hneg⟩ := List.mem_filter.mp he
            have hsame : e = ⟨e.key, doc⟩ :=
              results.eq_of_key_eq he' hmem rfl
            rw [hsame, hmatch] at hneg
            exact absurd hneg (by decide)
          rw [if_neg hnot, Option.filter_some, if_pos hmatch]
      | false =>
          have hdeleted : ∃ e ∈ results.rows.filter fun e => !matchesEntry query e,
              e.key = key :=
            ⟨⟨key, doc⟩, List.mem_filter.mpr ⟨hmem, by rw [hmatch]; rfl⟩, rfl⟩
          rw [if_pos hdeleted, Option.filter_some, if_neg (by simp [hmatch])]

/-! ## What the scans of the cache find -/

section Scans

variable (cache : RemoteDocumentCache)

/-- Passing over rows of other depths and stopping early misses nothing. -/
theorem mem_collectionRows (path : ResourcePath) (e : KeyedDocument) :
    e ∈ collectionRows cache path ↔
      e ∈ cache.documents.rows ∧ isImmediateParentOf path e.key.path := by
  have htake : collectionRows cache path =
      ((cache.documents.seek path).filter fun e =>
        e.key.path.length = path.length + 1).filter fun e => path.isPrefixOf e.key.path := by
    rw [collectionRows, Table.seek_eq_filter]
    refine takeWhile_eq_filter ((cache.documents.sorted.filter _).filter _) ?_
    intro a ha b _ hab hb
    have hpath : path ≤ a.key.path :=
      of_decide_eq_true (List.mem_filter.mp (List.mem_of_mem_filter ha)).2
    exact List.isPrefixOf_iff_prefix.mpr
      (isPrefix_of_between hpath (le_of_lt hab) (List.isPrefixOf_iff_prefix.mp hb))
  rw [htake, Table.seek_eq_filter, isImmediateParentOf_iff]
  simp only [List.mem_filter, decide_eq_true_eq, List.isPrefixOf_iff_prefix]
  constructor
  · rintro ⟨⟨⟨he, -⟩, hlength⟩, hprefix⟩
    exact ⟨he, hprefix, hlength⟩
  · rintro ⟨he, hprefix, hlength⟩
    exact ⟨⟨⟨he, le_of_isPrefix hprefix⟩, hlength⟩, hprefix⟩

theorem mem_pathsSince (path : ResourcePath) (sinceReadTime : Nat) (p : ResourcePath) :
    p ∈ pathsSince cache path sinceReadTime ↔ ∃ r ∈ cache.readTimes.rows,
      r.collectionPath = path ∧ sinceReadTime < r.readTime ∧ path ++ [r.documentId] = p := by
  rw [pathsSince, cache.readTimes.scan_eq_filter_from]
  · simp only [List.mem_map, List.mem_filter, Bool.and_eq_true, decide_eq_true_eq]
    constructor
    · rintro ⟨r, ⟨⟨hr, hpath, -⟩, htime⟩, hp⟩
      exact ⟨r, hr, hpath, htime, hp⟩
    · rintro ⟨r, hr, hpath, htime, hp⟩
      refine ⟨r, ⟨⟨hr, hpath, ?_⟩, htime⟩, hp⟩
      rw [ReadTime.order, hpath]
      exact Prod.Lex.toLex_le_toLex.mpr
        (.inr ⟨rfl, Prod.Lex.toLex_le_toLex.mpr (.inl htime)⟩)
  · intro r _ r' _ hstart hlt hr'
    have hpath' : r'.collectionPath = path := of_decide_eq_true hr'
    rw [ReadTime.order, ReadTime.order, hpath'] at hlt
    have hle : path ≤ r.collectionPath := by
      rcases Prod.Lex.toLex_le_toLex.mp hstart with h | ⟨h, -⟩
      · exact h.le
      · exact h.le
    have hge : r.collectionPath ≤ path := by
      rcases Prod.Lex.toLex_lt_toLex.mp hlt with h | ⟨h, -⟩
      · exact h.le
      · exact h.le
    exact decide_eq_true (le_antisymm hge hle)

theorem get_eq_some_iff {cache : RemoteDocumentCache} {key : DocumentKey}
    {doc : MaybeDocument} : cache.get key = some doc ↔ ⟨key, doc⟩ ∈ cache.documents.rows :=
  DocumentMap.find_eq_some_iff

/-- Documents of the cache, those that exist, put into a map. -/
theorem find_foldl_put_existing {cache : RemoteDocumentCache} {es : List KeyedDocument}
    (hes : ∀ e ∈ es, e ∈ cache.documents.rows) (docs : DocumentMap) (key : DocumentKey) :
    DocumentMap.find ((es.filter fun e => e.document.isDocument).foldl
      (fun docs e => docs.put e) docs) key =
      if (∃ e ∈ es, e.key = key) ∧ (existing (cache.get key)).isSome then
        existing (cache.get key)
      else docs.find key := by
  have hget : ∀ e ∈ es.filter fun e => e.document.isDocument,
      cache.get e.key = some e.document := by
    intro e he
    exact get_eq_some_iff.mpr (hes e (List.mem_of_mem_filter he))
  rw [find_foldl_put_of_get cache.get hget]
  by_cases hfound : ∃ e ∈ es.filter fun e => e.document.isDocument, e.key = key
  · obtain ⟨e, he, rfl⟩ := hfound
    obtain ⟨hmem, hdoc⟩ := List.mem_filter.mp he
    have hexisting : existing (cache.get e.key) = some e.document := by
      rw [hget e he, existing, Option.filter_some, if_pos hdoc]
    rw [if_pos ⟨e, he, rfl⟩, hexisting, if_pos ⟨⟨e, hmem, rfl⟩, rfl⟩, hget e he]
  · have hnot : ¬((∃ e ∈ es, e.key = key) ∧ (existing (cache.get key)).isSome) := by
      rintro ⟨⟨e, he, rfl⟩, hsome⟩
      refine hfound ⟨e, List.mem_filter.mpr ⟨he, ?_⟩, rfl⟩
      rw [get_eq_some_iff.mpr (hes e he), existing, Option.filter_some] at hsome
      by_contra hdoc
      rw [if_neg hdoc] at hsome
      cases hsome
    rw [if_neg hfound, if_neg hnot]

/-- What `GetMatching` looks at. -/
def Found (query : Query) (sinceReadTime : Nat) (key : DocumentKey) : Prop :=
  if sinceReadTime ≠ 0 then key.path ∈ pathsSince cache query.path sinceReadTime
  else isImmediateParentOf query.path key.path

instance (query : Query) (sinceReadTime : Nat) (key : DocumentKey) :
    Decidable (Found cache query sinceReadTime key) :=
  inferInstanceAs (Decidable (if sinceReadTime ≠ 0 then
    key.path ∈ pathsSince cache query.path sinceReadTime
    else isImmediateParentOf query.path key.path = true))

/-- The rows of the paths that the index of read times gives. -/
def rowsSince (path : ResourcePath) (sinceReadTime : Nat) : List KeyedDocument :=
  (pathsSince cache path sinceReadTime).filterMap fun p => cache.documents.get p

theorem mem_rowsSince (path : ResourcePath) (sinceReadTime : Nat) (e : KeyedDocument) :
    e ∈ rowsSince cache path sinceReadTime ↔
      e ∈ cache.documents.rows ∧ e.key.path ∈ pathsSince cache path sinceReadTime := by
  simp only [rowsSince, List.mem_filterMap, Table.get_eq_some_iff]
  constructor
  · rintro ⟨p, hp, he, rfl⟩
    exact ⟨he, hp⟩
  · rintro ⟨he, hp⟩
    exact ⟨e.key.path, hp, he, rfl⟩

/-- Either way `GetMatching` puts the existing ones of some rows into a map. -/
theorem getMatching_eq_foldl (query : Query) (sinceReadTime : Nat) :
    ∃ es : List KeyedDocument,
      getMatching cache query sinceReadTime =
        (es.filter fun e => e.document.isDocument).foldl (fun docs e => docs.put e)
          Table.empty ∧
      ∀ e, e ∈ es ↔
        e ∈ cache.documents.rows ∧ Found cache query sinceReadTime e.key := by
  unfold getMatching Found
  by_cases hsince : sinceReadTime ≠ 0
  · simp only [if_pos hsince]
    refine ⟨rowsSince cache query.path sinceReadTime, ?_, mem_rowsSince cache _ _⟩
    rw [List.foldl_filter, rowsSince, List.foldl_filterMap]
    refine List.foldl_ext _ _ _ ?_
    intro results path _
    cases cache.documents.get path <;> rfl
  · simp only [if_neg hsince]
    exact ⟨collectionRows cache query.path, (List.foldl_filter ..).symm,
      mem_collectionRows cache _⟩

theorem find_getMatching (query : Query) (sinceReadTime : Nat) (key : DocumentKey) :
    (getMatching cache query sinceReadTime).find key =
      if Found cache query sinceReadTime key then existing (cache.get key) else none := by
  obtain ⟨es, hfold, hmem⟩ := getMatching_eq_foldl cache query sinceReadTime
  have hrows : ∀ e ∈ es, e ∈ cache.documents.rows := fun e he => ((hmem e).mp he).1
  rw [hfold, find_foldl_put_existing hrows, find_empty]
  cases hget : cache.get key with
  | none => simp [existing]
  | some doc =>
      have hfound : (∃ e ∈ es, e.key = key) ↔ Found cache query sinceReadTime key := by
        constructor
        · rintro ⟨e, he, rfl⟩
          exact ((hmem e).mp he).2
        · intro h
          exact ⟨⟨key, doc⟩, (hmem _).mpr ⟨get_eq_some_iff.mp hget, h⟩, rfl⟩
      simp only [hfound]
      by_cases h : Found cache query sinceReadTime key
      · rw [if_pos h]
        cases existing (some doc) <;> simp [h]
      · rw [if_neg h, if_neg fun h' => h h'.1]

end Scans

/-! ## The queue on top -/

/-- A mutation does not tell a document that does not exist from none. -/
theorem existing_applyToLocalView (m : Mutation) (doc : Option MaybeDocument) :
    existing (m.applyToLocalView (existing doc)) = existing (m.applyToLocalView doc) := by
  have hvalid : ∀ (p : Precondition) (d : MaybeDocument), d.isDocument = false →
      p.isValidFor (some d) = p.isValidFor none := by
    intro p d hd
    cases d with
    | document data version state => cases hd
    | noDocument version committed => cases p <;> rfl
    | unknownDocument version => cases p <;> rfl
  cases doc with
  | none => rfl
  | some d =>
      cases hd : d.isDocument with
      | true =>
          have hsome : existing (some d) = some d := by
            rw [existing, Option.filter_some, if_pos hd]
          rw [hsome]
      | false =>
          have hnone : existing (some d) = none := by
            rw [existing, Option.filter_some, if_neg (by simp [hd])]
          rw [hnone]
          unfold Mutation.applyToLocalView
          rw [hvalid m.precondition d hd]
          cases m.precondition.isValidFor none with
          | false =>
              simp only [Bool.false_eq_true, if_false]
              exact hnone.symm
          | true =>
              cases d with
              | document data version state => cases hd
              | noDocument version committed => cases m <;> rfl
              | unknownDocument version => cases m <;> rfl

section Overlay

variable {key : DocumentKey} {query : Query}

theorem existing_foldl (ms : List Mutation) (doc : Option MaybeDocument) :
    ms.foldl (fun doc m => if m.key = key then existing (m.applyToLocalView doc) else doc)
        (existing doc) =
      existing (ms.foldl
        (fun doc m => if m.key = key then m.applyToLocalView doc else doc) doc) := by
  induction ms generalizing doc with
  | nil => rfl
  | cons m ms ih =>
      rw [List.foldl_cons, List.foldl_cons]
      by_cases hkey : m.key = key
      · rw [if_pos hkey, if_pos hkey, existing_applyToLocalView, ih]
      · rw [if_neg hkey, if_neg hkey, ih]

theorem find_mutateResults (hkey : isImmediateParentOf query.path key.path)
    (results : DocumentMap) (m : Mutation) :
    (mutateResults query results m).find key =
      if m.key = key then existing (m.applyToLocalView (results.find key))
      else results.find key := by
  unfold mutateResults
  by_cases hm : m.key = key
  · subst hm
    rw [if_pos hkey, if_pos rfl]
    cases hview : m.applyToLocalView (results.find m.key) with
    | none =>
        show DocumentMap.find (results.delete m.key.path) m.key = none
        rw [find_delete, if_pos rfl]
    | some doc =>
        rw [existing, Option.filter_some]
        by_cases hdoc : doc.isDocument
        · simp only [if_pos hdoc]
          rw [find_put, if_pos rfl]
        · simp only [if_neg hdoc]
          rw [find_delete, if_pos rfl]
  · have hne : key ≠ m.key := fun h => hm h.symm
    rw [if_neg hm]
    split
    · split
      · split
        · rw [find_put, if_neg hne]
        · rw [find_delete, if_neg hne]
      · rw [find_delete, if_neg hne]
    · rfl

theorem find_foldl_mutateResults (hkey : isImmediateParentOf query.path key.path)
    (ms : List Mutation) (results : DocumentMap) :
    DocumentMap.find (ms.foldl (mutateResults query) results) key =
      ms.foldl (fun doc m => if m.key = key then existing (m.applyToLocalView doc) else doc)
        (results.find key) := by
  induction ms generalizing results with
  | nil => rfl
  | cons m ms ih => rw [List.foldl_cons, ih, find_mutateResults hkey, List.foldl_cons]

/-- Some mutation patches the document. -/
def Patched (batches : List MutationBatch) (key : DocumentKey) : Prop :=
  ∃ b ∈ batches, ∃ value mask precondition,
    Mutation.patch key value mask precondition ∈ b.mutations

theorem mem_missingDocKeys (batches : List MutationBatch) (docs : DocumentMap) :
    key ∈ missingDocKeys batches docs ↔ Patched batches key ∧ docs.find key = none := by
  simp only [missingDocKeys, List.mem_flatMap, List.mem_filterMap]
  constructor
  · rintro ⟨b, hb, m, hm, hkey⟩
    cases m with
    | set k value precondition => cases hkey
    | delete k precondition => cases hkey
    | patch k value mask precondition =>
        by_cases hfind : docs.find k = none
        · simp only [if_pos hfind] at hkey
          cases hkey
          exact ⟨⟨b, hb, value, mask, precondition, hm⟩, hfind⟩
        · simp only [if_neg hfind] at hkey
          cases hkey
  · rintro ⟨⟨b, hb, value, mask, precondition, hm⟩, hfind⟩
    exact ⟨b, hb, _, hm, if_pos hfind⟩

theorem find_addMissingBaseDocuments (store : LocalStore) (batches : List MutationBatch)
    (docs : DocumentMap) :
    (addMissingBaseDocuments store batches docs).find key =
      if key ∈ missingDocKeys batches docs then existing (store.remoteDocumentCache.get key)
      else docs.find key := by
  have hfold : addMissingBaseDocuments store batches docs =
      (((missingDocKeys batches docs).filterMap fun k =>
        (store.remoteDocumentCache.get k).map (KeyedDocument.mk k)).filter
          fun e => e.document.isDocument).foldl (fun docs e => docs.put e) docs := by
    rw [addMissingBaseDocuments, List.foldl_filter, List.foldl_filterMap]
    refine List.foldl_ext _ _ _ ?_
    intro docs k _
    cases store.remoteDocumentCache.get k <;> rfl
  have hrows : ∀ e ∈ (missingDocKeys batches docs).filterMap fun k =>
      (store.remoteDocumentCache.get k).map (KeyedDocument.mk k),
      e ∈ store.remoteDocumentCache.documents.rows := by
    intro e he
    obtain ⟨k, -, hk⟩ := List.mem_filterMap.mp he
    obtain ⟨doc, hdoc, rfl⟩ := Option.map_eq_some_iff.mp hk
    exact get_eq_some_iff.mp hdoc
  rw [hfold, find_foldl_put_existing hrows]
  by_cases hmissing : key ∈ missingDocKeys batches docs
  · rw [if_pos hmissing]
    cases hget : existing (store.remoteDocumentCache.get key) with
    | none =>
        rw [if_neg (by simp)]
        exact ((mem_missingDocKeys batches docs).mp hmissing).2
    | some doc =>
        refine if_pos ⟨?_, rfl⟩
        obtain ⟨hdoc, -⟩ := Option.filter_eq_some_iff.mp hget
        exact ⟨⟨key, doc⟩, List.mem_filterMap.mpr ⟨key, hmissing, by rw [hdoc]; rfl⟩, rfl⟩
  · rw [if_neg hmissing, if_neg]
    rintro ⟨⟨e, he, rfl⟩, -⟩
    obtain ⟨k, hk, hdoc⟩ := List.mem_filterMap.mp he
    obtain ⟨doc, -, rfl⟩ := Option.map_eq_some_iff.mp hdoc
    exact hmissing hk

end Overlay

/-! ## What a collection query finds -/

theorem isImmediateParentOf_of_matchesEntry {query : Query}
    (hodd : query.path.length % 2 = 1) {key : DocumentKey} {doc : MaybeDocument}
    (h : matchesEntry query ⟨key, doc⟩) : isImmediateParentOf query.path key.path := by
  cases doc with
  | document data version state =>
      have hpath := Query.path_of_matchesDoc h
      rwa [Query.matchesPath, if_neg (by omega)] at hpath
  | noDocument version committed => cases h
  | unknownDocument version => cases h

/-- Nothing outside the collection matches. -/
theorem filter_matchesEntry_eq_none {query : Query} (hodd : query.path.length % 2 = 1)
    {key : DocumentKey} (hkey : ¬isImmediateParentOf query.path key.path)
    (doc : Option MaybeDocument) :
    (doc.filter fun doc => matchesEntry query ⟨key, doc⟩) = none := by
  refine Option.filter_eq_none_iff.mpr ?_
  intro doc _ hmatch
  exact hkey (isImmediateParentOf_of_matchesEntry hodd hmatch)

/-- Only documents that exist match. -/
theorem filter_existing (query : Query) (key : DocumentKey) (doc : Option MaybeDocument) :
    ((existing doc).filter fun doc => matchesEntry query ⟨key, doc⟩) =
      doc.filter fun doc => matchesEntry query ⟨key, doc⟩ := by
  rw [existing, Option.filter_filter]
  refine congrArg (fun p => doc.filter p) (funext fun doc => ?_)
  cases doc with
  | document data version state => rw [MaybeDocument.isDocument, Bool.true_and]
  | noDocument version committed => rfl
  | unknownDocument version => rfl

section Collection

variable {store : LocalStore} {s : PendingBatches} {query : Query} {key : DocumentKey}

theorem affectsBelow_of_affects {b : MutationBatch}
    (hkey : isImmediateParentOf query.path key.path) (h : b.affects key) :
    b.affectsBelow query.path :=
  affectsBelow_iff.mpr ⟨key, h, isImmediateParentOf_iff.mp hkey⟩

/-- A batch that patches a document of the collection affects the collection. -/
theorem patched_filter (hkey : isImmediateParentOf query.path key.path)
    {batches : List MutationBatch} (h : Patched batches key) :
    Patched (batches.filter fun b => b.affectsBelow query.path) key := by
  obtain ⟨b, hb, value, mask, precondition, hm⟩ := h
  have haffects : b.affects key := affects_iff.mpr ⟨_, hm, rfl⟩
  exact ⟨b, List.mem_filter.mpr ⟨hb, affectsBelow_of_affects hkey haffects⟩,
    value, mask, precondition, hm⟩

/-- What the mutations are applied to: the cached document, unless it is neither
found nor patched. -/
def BaseOf (store : LocalStore) (s : PendingBatches) (query : Query)
    (sinceReadTime : Nat) (key : DocumentKey) (base : Option MaybeDocument) : Prop :=
  base = store.remoteDocumentCache.get key ∨ base = none ∧
    ¬Found store.remoteDocumentCache query sinceReadTime key ∧ ¬Patched s.batches key

theorem find_baseDocuments (hkey : isImmediateParentOf query.path key.path)
    (sinceReadTime : Nat) : ∃ base, BaseOf store s query sinceReadTime key base ∧
      (addMissingBaseDocuments store (s.batches.filter fun b => b.affectsBelow query.path)
        (getMatching store.remoteDocumentCache query sinceReadTime)).find key =
          existing base := by
  rw [find_addMissingBaseDocuments]
  by_cases hfound : Found store.remoteDocumentCache query sinceReadTime key
  · refine ⟨_, .inl rfl, ?_⟩
    rw [find_getMatching, if_pos hfound]
    exact ite_self _
  · by_cases hpatched : Patched s.batches key
    · refine ⟨_, .inl rfl, if_pos ?_⟩
      rw [mem_missingDocKeys, find_getMatching, if_neg hfound]
      exact ⟨patched_filter hkey hpatched, rfl⟩
    · refine ⟨none, .inr ⟨rfl, hfound, hpatched⟩, ?_⟩
      have hnot : key ∉ missingDocKeys (s.batches.filter fun b => b.affectsBelow query.path)
          (getMatching store.remoteDocumentCache query sinceReadTime) := by
        intro hmissing
        obtain ⟨b, hb, hpatch⟩ := ((mem_missingDocKeys _ _).mp hmissing).1
        exact hpatched ⟨b, List.mem_of_mem_filter hb, hpatch⟩
      rw [if_neg hnot, find_getMatching, if_neg hfound]
      rfl

/-- The scan of a collection: the view over the base document, if it matches. -/
theorem getDocumentsMatchingCollectionQuery_ok (h : store.mutationQueue.Represents s)
    (hodd : query.path.length % 2 = 1) (hquery : ¬query.isDocumentQuery)
    (sinceReadTime : Nat) :
    ∃ docs, getDocumentsMatchingCollectionQuery store query sinceReadTime = .ok docs ∧
      ∀ key, ∃ base, BaseOf store s query sinceReadTime key base ∧
        docs.find key = (s.batches.foldl (applyToLocalDocument key) base).filter
          fun doc => matchesEntry query ⟨key, doc⟩ := by
  refine ⟨_, by rw [getDocumentsMatchingCollectionQuery, h.ofQuery hquery]; rfl, ?_⟩
  intro key
  rw [find_keepMatching]
  by_cases hkey : isImmediateParentOf query.path key.path
  · obtain ⟨base, hbase, hfind⟩ := find_baseDocuments hkey
      sinceReadTime
    refine ⟨base, hbase, ?_⟩
    rw [find_foldl_mutateResults hkey, hfind, existing_foldl, ← foldl_applyToLocalDocument,
      foldl_filter_affecting, filter_existing]
    intro b _ haffects
    exact affectsBelow_of_affects hkey haffects
  · refine ⟨_, .inl rfl, ?_⟩
    rw [filter_matchesEntry_eq_none hodd hkey, filter_matchesEntry_eq_none hodd hkey]

theorem documentsMatchingQuery_ok (h : store.mutationQueue.Represents s)
    (hodd : query.path.length % 2 = 1) (sinceReadTime : Nat) :
    ∃ docs, documentsMatchingQuery store query sinceReadTime = .ok docs ∧
      ∀ key, ∃ base, BaseOf store s query sinceReadTime key base ∧
        docs.find key = (s.batches.foldl (applyToLocalDocument key) base).filter
          fun doc => matchesEntry query ⟨key, doc⟩ := by
  have hnot : ¬query.isDocumentQuery := by
    intro hdoc
    have heven := Query.even_of_isDocumentQuery hdoc
    omega
  rw [documentsMatchingQuery, dif_neg hnot]
  exact getDocumentsMatchingCollectionQuery_ok h hodd hnot sinceReadTime

/-- **Full scans.**  The plain scan gives the documents whose view exists and
matches. -/
theorem fullScan (h : store.mutationQueue.Represents s)
    (hodd : query.path.length % 2 = 1) :
    ∃ docs, executeFullCollectionScan store query = .ok docs ∧
      ∀ key, docs.find key =
        (store.view s key).filter fun doc => matchesEntry query ⟨key, doc⟩ := by
  obtain ⟨docs, hdocs, hfind⟩ := documentsMatchingQuery_ok h hodd 0
  refine ⟨docs, hdocs, ?_⟩
  intro key
  obtain ⟨base, hbase, hkey⟩ := hfind key
  rw [hkey]
  rcases hbase with rfl | ⟨rfl, hfound, -⟩
  · rfl
  · -- a full scan finds the whole collection
    have houtside : ¬isImmediateParentOf query.path key.path := by
      simpa [Found] using hfound
    rw [filter_matchesEntry_eq_none hodd houtside, filter_matchesEntry_eq_none hodd houtside]

end Collection

/-- The clues that are found, by number. -/
def unlockedClues : Query where
  path := ["clues"]
  filters := [.fieldFilter "Locked" (.bool false)]
  explicitOrderBys := [⟨.field "number", false⟩]
  limit := none

/-- Unlocking a clue waits in the queue. -/
def unlockWaits : PendingBatches :=
  PendingBatches.empty.push
    [toMutation (.updateData (clueKey "Clue1") "Locked" (.bool false))] (List.cons_ne_nil _ _)

/-- A document of `clues` as the backend sends it. -/
def clueDocument (locked : Bool) (number : Rat) (version : Nat) : MaybeDocument :=
  .document (ObjectValue.ofList [("Locked", .bool locked), ("number", .number number)])
    version .kSynced

/-- The first clue was read at 3. -/
def cachedClues : RemoteDocumentCache :=
  RemoteDocumentCache.add ⟨Table.empty, Table.empty⟩ (clueKey "Clue1")
    (clueDocument true 1 2) 3

/-- The cache and the queue together. -/
def huntStore : LocalStore where
  mutationQueue :=
    { nextBatchId := 2
      mutations := ⟨unlockWaits.batches, unlockWaits.sorted⟩
      documentMutations := unlockWaits.batches.foldl DocumentIndex.add Table.empty }
  remoteDocumentCache := cachedClues.add (clueKey "Clue2") (clueDocument false 2 5) 6
  lastRemoteSnapshotVersion := 6

theorem huntStore_represents : huntStore.mutationQueue.Represents unlockWaits :=
  { rows := rfl, next := rfl, index := indexes_empty.add _ }

example : ∃ docs, executeFullCollectionScan huntStore unlockedClues = .ok docs ∧
    (docs.find (clueKey "Clue1")).isSome ∧ (docs.find (clueKey "Clue2")).isSome := by
  obtain ⟨docs, hdocs, hfind⟩ :=
    fullScan huntStore_represents (show unlockedClues.path.length % 2 = 1 from rfl)
  refine ⟨docs, hdocs, ?_, ?_⟩
  · rw [hfind]
    decide
  · rw [hfind]
    decide

end ValentinesDay.Ports.QueryEngine
