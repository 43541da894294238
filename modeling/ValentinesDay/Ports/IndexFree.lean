import Mathlib.Algebra.Order.Ring.Unbundled.Rat
import Mathlib.Data.List.Lex
import Mathlib.Data.Prod.Lex
import Mathlib.Data.String.Basic
import ValentinesDay.Ports.QueryEngine

/-!
# Answers from a snapshot

Once the target of a query has had a snapshot without limbo documents, the query
engine does not scan the collection any more.  It takes the documents of the
target, and those that were read after the snapshot; whatever else the cache has
did not match then and has not changed.

With a limit that is not enough: a document that the limit left out may come in
when others leave.  So the engine looks at the document at the edge of the limit.
As long as this has not changed since the snapshot, all documents of the target
come before those that were left out, and these stay out.

## Main results

* `indexFree` — the answer from a snapshot has the data that the plain scan finds,
  as far as the limit goes.
-/

namespace ValentinesDay.Ports.QueryEngine

open ValentinesDay.Verified.OrderedTable
open ValentinesDay.Ports.Firestore
open ValentinesDay.Ports.Mutations
open ValentinesDay.Ports.MutationQueue
open ValentinesDay.Ports.Queries
open ValentinesDay.Ports.LocalDocuments
open ValentinesDay.Ports.DocumentSets
open ValentinesDay.Ports.QueryLimits

universe u

/-! ## Where the queue decides alone -/

section Queue

variable {store : LocalStore} {s : PendingBatches} {query : Query} {key : DocumentKey}

/-- A mutation that is no patch makes the data what it says. -/
theorem act_eq_of_not_patch {m : Mutation} (hm : m.OfApi)
    (hpatch : ∀ value mask precondition, m ≠ .patch m.key value mask precondition)
    (d d' : Option ObjectValue) : m.act d = m.act d' := by
  cases m with
  | set key value precondition =>
      cases hm
      rfl
  | patch key value mask precondition => exact absurd rfl (hpatch value mask precondition)
  | delete key precondition =>
      cases hm
      rfl

/-- The data of a document that is changed but not patched is the queue's. -/
theorem foldl_actAt_eq {ms : List Mutation} (hms : ∀ m ∈ ms, m.OfApi)
    (hpatch : ∀ value mask precondition, .patch key value mask precondition ∉ ms)
    (haffects : ∃ m ∈ ms, m.key = key) (d d' : Option ObjectValue) :
    ms.foldl (Mutation.actAt key) d = ms.foldl (Mutation.actAt key) d' := by
  induction ms generalizing d d' with
  | nil =>
      obtain ⟨m, hm, -⟩ := haffects
      cases hm
  | cons m ms ih =>
      obtain ⟨hm, hrest⟩ := List.forall_mem_cons.mp hms
      rw [List.foldl_cons, List.foldl_cons]
      by_cases hkey : m.key = key
      · subst hkey
        have hact := act_eq_of_not_patch hm (fun value mask precondition heq =>
          hpatch value mask precondition (heq ▸ List.mem_cons_self)) d d'
        rw [Mutation.actAt_self rfl, Mutation.actAt_self rfl, hact]
      · rw [Mutation.actAt_ne hkey, Mutation.actAt_ne hkey]
        refine ih hrest (fun value mask precondition hmem =>
          hpatch value mask precondition (List.mem_cons_of_mem m hmem)) ?_ d d'
        obtain ⟨m', hm', hkey'⟩ := haffects
        rcases List.mem_cons.mp hm' with rfl | hms'
        · exact absurd hkey' hkey
        · exact ⟨m', hms', hkey'⟩

/-- The base document matters only where it was looked for. -/
theorem dataOf_foldl_base (hapi : ∀ b ∈ s.batches, ∀ m ∈ b.mutations, m.OfApi)
    (hpatch : ¬Patched s.batches key) (haffects : ∃ b ∈ s.batches, b.affects key)
    (base base' : Option MaybeDocument) :
    dataOf (s.batches.foldl (applyToLocalDocument key) base) =
      dataOf (s.batches.foldl (applyToLocalDocument key) base') := by
  have hms : ∀ m ∈ s.batches.flatMap (·.mutations), m.OfApi := by
    intro m hm
    obtain ⟨b, hb, hmb⟩ := List.mem_flatMap.mp hm
    exact hapi b hb m hmb
  rw [foldl_applyToLocalDocument, foldl_applyToLocalDocument, dataOf_foldl hms,
    dataOf_foldl hms]
  refine foldl_actAt_eq hms ?_ ?_ _ _
  · intro value mask precondition hmem
    obtain ⟨b, hb, hmb⟩ := List.mem_flatMap.mp hmem
    exact hpatch ⟨b, hb, value, mask, precondition, hmb⟩
  · obtain ⟨b, hb, hb'⟩ := haffects
    obtain ⟨m, hm, hkey⟩ := affects_iff.mp hb'
    exact ⟨m, List.mem_flatMap.mpr ⟨b, hb, hm⟩, hkey⟩

theorem foldl_of_not_affected {batches : List MutationBatch}
    (h : ¬∃ b ∈ batches, b.affects key) (doc : Option MaybeDocument) :
    batches.foldl (applyToLocalDocument key) doc = doc := by
  induction batches with
  | nil => rfl
  | cons b batches ih =>
      have hb : b.affects key = false := by
        cases haffects : b.affects key with
        | false => rfl
        | true => exact absurd ⟨b, List.mem_cons_self, haffects⟩ h
      rw [List.foldl_cons, applyToLocalDocument_of_not_affects hb]
      refine ih ?_
      rintro ⟨b', hb', haffects⟩
      exact h ⟨b', List.mem_cons_of_mem b hb', haffects⟩

theorem dataOf_filter (query : Query) (key : DocumentKey) (doc : Option MaybeDocument) :
    dataOf (doc.filter fun doc => matchesEntry query ⟨key, doc⟩) =
      (dataOf doc).filter fun data => query.matchesDoc key data := by
  cases doc with
  | none => rfl
  | some d =>
      rw [Option.filter_some]
      cases d with
      | document data version state =>
          rw [dataOf_document, Option.filter_some,
            show matchesEntry query ⟨key, .document data version state⟩ =
              query.matchesDoc key data from rfl]
          cases query.matchesDoc key data <;> rfl
      | noDocument version committed => rfl
      | unknownDocument version => rfl

/-- What is found since the snapshot is right, or nothing, where the document was
not looked for and the queue does not change it. -/
theorem dataOf_base {snapshot : Nat} (hapi : ∀ b ∈ s.batches, ∀ m ∈ b.mutations, m.OfApi)
    {base : Option MaybeDocument} (hbase : BaseOf store s query snapshot key base) :
    dataOf ((s.batches.foldl (applyToLocalDocument key) base).filter
        fun doc => matchesEntry query ⟨key, doc⟩) =
      dataOf ((store.view s key).filter fun doc => matchesEntry query ⟨key, doc⟩) ∨
    ((s.batches.foldl (applyToLocalDocument key) base).filter
        fun doc => matchesEntry query ⟨key, doc⟩) = none ∧
      ¬Found store.remoteDocumentCache query snapshot key ∧
      store.view s key = store.remoteDocumentCache.get key := by
  rcases hbase with rfl | ⟨rfl, hfound, hpatch⟩
  · exact .inl rfl
  · by_cases haffects : ∃ b ∈ s.batches, b.affects key
    · refine .inl ?_
      rw [dataOf_filter, dataOf_filter, LocalStore.view,
        dataOf_foldl_base hapi hpatch haffects]
    · refine .inr ⟨?_, hfound, foldl_of_not_affected haffects _⟩
      rw [foldl_of_not_affected haffects]
      rfl

/-- A mutation leaves no document that has the state of the backend. -/
theorem eq_of_applyToLocalView_synced {m : Mutation} {doc : Option MaybeDocument}
    {data : ObjectValue} {version : Nat}
    (h : m.applyToLocalView doc = some (.document data version .kSynced)) :
    doc = some (.document data version .kSynced) := by
  unfold Mutation.applyToLocalView at h
  split at h
  · cases m <;> cases h
  · exact h

theorem eq_of_foldl_synced {ms : List Mutation} {doc : Option MaybeDocument}
    {data : ObjectValue} {version : Nat}
    (h : ms.foldl (fun doc m => if m.key = key then m.applyToLocalView doc else doc) doc =
      some (.document data version .kSynced)) :
    doc = some (.document data version .kSynced) := by
  induction ms generalizing doc with
  | nil => exact h
  | cons m ms ih =>
      rw [List.foldl_cons] at h
      have hstep := ih h
      split at hstep
      · exact eq_of_applyToLocalView_synced hstep
      · exact hstep

/-- A view without pending writes is the cached document. -/
theorem get_of_view_synced {data : ObjectValue} {version : Nat}
    (h : store.view s key = some (.document data version .kSynced)) :
    store.remoteDocumentCache.get key = some (.document data version .kSynced) := by
  rw [LocalStore.view, foldl_applyToLocalDocument] at h
  exact eq_of_foldl_synced h

end Queue

/-! ## Since the snapshot -/

/-- How the cache changes after a snapshot. -/
inductive CacheChange where
  | add (key : DocumentKey) (document : MaybeDocument) (readTime : Nat)
  | remove (key : DocumentKey)

/-- `Add` and `Remove`. -/
def CacheChange.apply (cache : RemoteDocumentCache) : CacheChange → RemoteDocumentCache
  | .add key document readTime => cache.add key document readTime
  | .remove key => cache.remove key

/-- Documents are read at later times. -/
def CacheChange.ReadAfter (snapshot : Nat) : CacheChange → Prop
  | .add _ _ readTime => snapshot < readTime
  | .remove _ => True

/-- Documents of the target become later versions. -/
def CacheChange.NewerThan (snapshot : Nat) (remoteKeys : Finset DocumentKey) :
    CacheChange → Prop
  | .add key document _ => key ∈ remoteKeys → snapshot < document.version
  | .remove _ => True

section Snapshot

variable {cache₀ : RemoteDocumentCache} {path : ResourcePath} {snapshot : Nat}

theorem order_injective {r r' : ReadTime} (h : r.order = r'.order) : r = r' := by
  obtain ⟨collectionPath, readTime, documentId⟩ := r
  obtain ⟨collectionPath', readTime', documentId'⟩ := r'
  simp only [ReadTime.order, EmbeddingLike.apply_eq_iff_eq, Prod.mk.injEq] at h
  obtain ⟨rfl, rfl, rfl⟩ := h
  rfl

theorem path_eq_of_isImmediateParentOf {child : ResourcePath}
    (h : isImmediateParentOf path child) :
    child.dropLast = path ∧ path ++ [child.getLast?.getD ""] = child := by
  obtain ⟨⟨post, rfl⟩, hlength⟩ := isImmediateParentOf_iff.mp h
  obtain ⟨segment, rfl⟩ : ∃ segment, post = [segment] := by
    refine List.length_eq_one_iff.mp ?_
    rw [List.length_append] at hlength
    omega
  simp

/-- Each document of the collection was there at the snapshot, or the index
tells that it was read later. -/
def Covered (cache₀ : RemoteDocumentCache) (path : ResourcePath) (snapshot : Nat)
    (cache : RemoteDocumentCache) : Prop :=
  ∀ e ∈ cache.documents.rows, isImmediateParentOf path e.key.path →
    e ∈ cache₀.documents.rows ∨ e.key.path ∈ pathsSince cache path snapshot

theorem covered_apply {cache : RemoteDocumentCache}
    (h : Covered cache₀ path snapshot cache) {change : CacheChange}
    (hafter : change.ReadAfter snapshot) :
    Covered cache₀ path snapshot (change.apply cache) := by
  cases change with
  | remove key =>
      intro e he hpath
      exact h e (Table.mem_delete _ |>.mp he).1 hpath
  | add key document readTime =>
      intro e he hpath
      rw [mem_pathsSince]
      rcases (Table.mem_put _).mp he with rfl | ⟨hold, -⟩
      · -- the new document has the new row
        obtain ⟨hcollection, hdocument⟩ := path_eq_of_isImmediateParentOf hpath
        exact .inr ⟨_, (Table.mem_put _).mpr (.inl rfl), hcollection, hafter, hdocument⟩
      · refine (h e hold hpath).imp id ?_
        intro hsince
        obtain ⟨r, hr, hrow⟩ := (mem_pathsSince cache path snapshot _).mp hsince
        refine ⟨r, (Table.mem_put _).mpr ?_, hrow⟩
        by_cases horder : r.order = ReadTime.order
            ⟨key.path.dropLast, readTime, key.path.getLast?.getD ""⟩
        · exact .inl (order_injective horder)
        · exact .inr ⟨hr, horder⟩

theorem covered_foldl {changes : List CacheChange}
    (hafter : ∀ c ∈ changes, c.ReadAfter snapshot) :
    Covered cache₀ path snapshot (changes.foldl CacheChange.apply cache₀) := by
  induction changes using List.reverseRecOn with
  | nil => exact fun e he _ => .inl he
  | append_singleton changes c ih =>
      rw [List.foldl_append]
      refine covered_apply (ih ?_) (hafter c (by simp))
      intro c' hc'
      exact hafter c' (List.mem_append_left _ hc')

/-- A document of the target in a version of the snapshot was there already. -/
theorem get_of_version_le {remoteKeys : Finset DocumentKey} {changes : List CacheChange}
    (hnewer : ∀ c ∈ changes, c.NewerThan snapshot remoteKeys) {key : DocumentKey}
    (hkey : key ∈ remoteKeys) {doc : MaybeDocument} (hversion : doc.version ≤ snapshot)
    (hget : (changes.foldl CacheChange.apply cache₀).get key = some doc) :
    cache₀.get key = some doc := by
  induction changes using List.reverseRecOn with
  | nil => exact hget
  | append_singleton changes c ih =>
      refine ih (fun c' hc' => hnewer c' (List.mem_append_left _ hc')) ?_
      rw [List.foldl_append, List.foldl_cons, List.foldl_nil] at hget
      have hc := hnewer c (by simp)
      cases c with
      | remove key' =>
          rw [CacheChange.apply, get_remove] at hget
          split at hget
          · cases hget
          · exact hget
      | add key' document readTime =>
          rw [CacheChange.apply, get_add] at hget
          split at hget
          · next heq =>
            -- a later version would have been added
            cases hget
            cases heq
            exact absurd (hc hkey) (not_lt.mpr hversion)
          · exact hget

end Snapshot

/-! ## Documents that match -/

section Matching

variable {κ : Type u} [LinearOrder κ] {query : Query} {key : DocumentKey}

/-- The documents of the store that match. -/
def resultOf (query : Query) (store : LocalStore) (s : PendingBatches)
    (key : DocumentKey) : Option Document :=
  (store.view s key).bind fun doc => matching query ⟨key, doc⟩

/-- What the cache has of a document, as far as it matches. -/
def cachedMatch (query : Query) (cache : RemoteDocumentCache) (key : DocumentKey) :
    Option Document :=
  (cache.get key).bind fun doc => matching query ⟨key, doc⟩

theorem map_toEntry_matching (query : Query) (key : DocumentKey)
    (doc : Option MaybeDocument) :
    (doc.bind fun doc => matching query ⟨key, doc⟩).map (fun d => d.toEntry.document) =
      doc.filter fun doc => matchesEntry query ⟨key, doc⟩ := by
  rcases doc with _ | doc
  · rfl
  · rw [Option.bind_some, Option.filter_some]
    cases doc with
    | document data version state =>
        rw [show matchesEntry query ⟨key, .document data version state⟩ =
          query.matchesDoc key data from rfl]
        simp only [matching, toDocument, Option.filter_some]
        cases query.matchesDoc key data <;> rfl
    | noDocument version committed => rfl
    | unknownDocument version => rfl

theorem map_data_matching (query : Query) (key : DocumentKey) (doc : Option MaybeDocument) :
    (doc.bind fun doc => matching query ⟨key, doc⟩).map (·.data) =
      dataOf (doc.filter fun doc => matchesEntry query ⟨key, doc⟩) := by
  rw [← map_toEntry_matching]
  cases doc.bind fun doc => matching query ⟨key, doc⟩ <;> rfl

/-- Matching once more. -/
theorem bind_matching_filter (query : Query) (key : DocumentKey)
    (doc : Option MaybeDocument) :
    ((doc.filter fun doc => matchesEntry query ⟨key, doc⟩).bind
        fun doc => matching query ⟨key, doc⟩) =
      doc.bind fun doc => matching query ⟨key, doc⟩ := by
  rcases doc with _ | doc
  · rfl
  · rw [Option.filter_some]
    cases doc with
    | document data version state =>
        rw [show matchesEntry query ⟨key, .document data version state⟩ =
          query.matchesDoc key data from rfl]
        cases hmatch : query.matchesDoc key data with
        | true => rfl
        | false => simp [matching, toDocument, Option.filter_some, hmatch]
    | noDocument version committed => rfl
    | unknownDocument version => rfl

theorem getDocument_applyQuery (comparator : DocumentComparator κ) (query : Query)
    (documents : DocumentMap) (key : DocumentKey) :
    (applyQuery comparator query documents).getDocument key =
      (documents.find key).bind fun doc => matching query ⟨key, doc⟩ := by
  have hone : ∀ (docs : DocumentSet comparator) (e : KeyedDocument) (key : DocumentKey),
      ((matching query e).elim docs docs.insert).getDocument key =
        if key = e.key then (matching query e).or (docs.getDocument key)
        else docs.getDocument key := by
    intro docs e key
    cases hmatch : matching query e with
    | none => exact (ite_self _).symm
    | some d =>
        rw [← key_of_matching hmatch]
        exact docs.getDocument_insert d key
  have hfold : ∀ (es : List KeyedDocument), (es.Pairwise fun e e' => e.key ≠ e'.key) →
      ∀ docs : DocumentSet comparator,
        (∀ e ∈ es, docs.getDocument e.key = none) → ∀ key,
        (es.foldl (fun docs e => (matching query e).elim docs docs.insert) docs).getDocument
          key = ((es.find? fun e => e.key = key).bind (matching query)).or
            (docs.getDocument key) := by
    intro es hes
    induction hes with
    | nil => exact fun docs _ key => rfl
    | @cons e es hfresh _ ih =>
        intro docs hnone key
        obtain ⟨he, hrest⟩ := List.forall_mem_cons.mp hnone
        rw [List.foldl_cons, ih, hone]
        · by_cases hkey : e.key = key
          · have hlast : (es.find? fun e => e.key = key) = none := by
              refine List.find?_eq_none.mpr fun e' he' => ?_
              rw [decide_eq_true_eq, ← hkey]
              exact (hfresh e' he').symm
            rw [hlast, List.find?_cons_of_pos (by simpa using hkey), if_pos hkey.symm]
            rfl
          · rw [List.find?_cons_of_neg (by simpa using hkey), if_neg fun h => hkey h.symm]
        · intro e' he'
          rw [hone, if_neg (hfresh e' he').symm, hrest e' he']
  have hrows : documents.rows.Pairwise fun e e' => e.key ≠ e'.key :=
    documents.sorted.imp fun hlt heq => absurd (congrArg DocumentKey.path heq) (ne_of_lt hlt)
  rw [applyQuery, hfold documents.rows hrows .empty (fun _ _ => rfl) key,
    DocumentSet.getDocument_empty, Option.or_none]
  cases hfind : documents.rows.find? fun e => e.key = key with
  | none =>
      cases hget : documents.find key with
      | none => rfl
      | some doc =>
          have hmem := DocumentMap.find_eq_some_iff.mp hget
          have hnot := List.find?_eq_none.mp hfind _ hmem
          exact absurd (decide_eq_true rfl) hnot
  | some e =>
      have hkey : e.key = key := by simpa using List.find?_some hfind
      subst hkey
      have hget : documents.find e.key = some e.document :=
        DocumentMap.find_eq_some_iff.mpr (List.mem_of_find?_eq_some hfind)
      rw [hget]
      rfl

theorem data_applyQuery (comparator : DocumentComparator κ) (query : Query)
    (documents : DocumentMap) (key : DocumentKey) :
    ((applyQuery comparator query documents).getDocument key).map (·.data) =
      (dataOf (documents.find key)).filter fun data => query.matchesDoc key data := by
  rw [getDocument_applyQuery, map_data_matching, dataOf_filter]

end Matching

/-! ## Both ways agree -/

section Agreement

variable {κ : Type u} [LinearOrder κ] {comparator : DocumentComparator κ}
  {store : LocalStore} {s : PendingBatches} {query : Query} {key : DocumentKey}
  {snapshot : Nat} {remoteKeys : Finset DocumentKey} {previous : DocumentSet comparator}

/-- The target as of its snapshot: a cached document that matched is in it, or the
limit leaves it out, behind as many documents of the target as it lets in. -/
def TargetOf (comparator : DocumentComparator κ) (query : Query)
    (cache : RemoteDocumentCache) (remoteKeys : Finset DocumentKey) : Prop :=
  ∀ key d, cachedMatch query cache key = some d → key ∈ remoteKeys ∨
    ∃ limit ∈ query.limit, limit.count ≤ remoteKeys.card ∧
      ∀ key' ∈ remoteKeys, ∃ d', cachedMatch query cache key' = some d' ∧
        limitPlace limit.type comparator d' < limitPlace limit.type comparator d

/-- The documents of the target, as far as they match now. -/
def Previous (store : LocalStore) (s : PendingBatches) (query : Query)
    (remoteKeys : Finset DocumentKey) (previous : DocumentSet comparator) : Prop :=
  ∀ key, previous.getDocument key =
    if key ∈ remoteKeys then resultOf query store s key else none

theorem previous_applyQuery (comparator : DocumentComparator κ)
    (h : store.mutationQueue.Represents s) (query : Query)
    (remoteKeys : Finset DocumentKey) :
    ∃ documents, store.getDocuments (remoteKeys.sort KeyLE) = .ok documents ∧
      Previous store s query remoteKeys (applyQuery comparator query documents) := by
  obtain ⟨documents, hdocuments, hfind⟩ := getDocuments_ok h (remoteKeys.sort KeyLE)
  refine ⟨documents, hdocuments, fun key => ?_⟩
  rw [getDocument_applyQuery, hfind]
  simp only [Finset.mem_sort]
  by_cases hkey : key ∈ remoteKeys
  · rw [if_pos hkey, if_pos hkey, resultOf]
    cases store.view s key <;> rfl
  · rw [if_neg hkey, if_neg hkey]
    rfl

/-- The documents of the target over the others. -/
theorem find_merge (previous : DocumentSet comparator) (results : DocumentMap)
    (key : DocumentKey) :
    DocumentMap.find (previous.documents.foldl (fun docs d => docs.put d.toEntry) results)
        key =
      ((previous.getDocument key).map fun d => d.toEntry.document).or (results.find key) := by
  have hget : ∀ e ∈ previous.documents.map Document.toEntry,
      ((previous.getDocument e.key).map fun d => d.toEntry.document) = some e.document := by
    intro e he
    obtain ⟨d, hd, rfl⟩ := List.mem_map.mp he
    exact congrArg (Option.map fun d : Document => d.toEntry.document)
      (previous.getDocument_of_mem hd)
  rw [← List.foldl_map, find_foldl_put_of_get
    (fun key => (previous.getDocument key).map fun d => d.toEntry.document) hget]
  cases hfind : previous.getDocument key with
  | none =>
      rw [if_neg]
      · rfl
      · rintro ⟨e, he, rfl⟩
        have hnone := hget e he
        rw [hfind] at hnone
        cases hnone
  | some d =>
      obtain ⟨hd, rfl⟩ := (previous.getDocument_eq_some_iff).mp hfind
      rw [if_pos ⟨_, List.mem_map_of_mem hd, rfl⟩]
      rfl

/-- At each key the answer is right, or the document was not looked for and is not
of the target. -/
theorem answer_at (hapi : ∀ b ∈ s.batches, ∀ m ∈ b.mutations, m.OfApi)
    (hprevious : Previous store s query remoteKeys previous) {updated : DocumentMap}
    {base : Option MaybeDocument} (hbase : BaseOf store s query snapshot key base)
    (hfind : updated.find key = (s.batches.foldl (applyToLocalDocument key) base).filter
      fun doc => matchesEntry query ⟨key, doc⟩) :
    dataOf (DocumentMap.find
        (previous.documents.foldl (fun docs d => docs.put d.toEntry) updated) key) =
      dataOf ((store.view s key).filter fun doc => matchesEntry query ⟨key, doc⟩) ∨
    DocumentMap.find
        (previous.documents.foldl (fun docs d => docs.put d.toEntry) updated) key = none ∧
      key ∉ remoteKeys ∧ ¬Found store.remoteDocumentCache query snapshot key ∧
      store.view s key = store.remoteDocumentCache.get key := by
  rw [find_merge, hprevious key, hfind]
  by_cases hremote : key ∈ remoteKeys
  · rw [if_pos hremote, resultOf, map_toEntry_matching]
    refine .inl ?_
    cases hmatch : (store.view s key).filter fun doc => matchesEntry query ⟨key, doc⟩ with
    | some doc => rfl
    | none =>
        rw [Option.none_or]
        rcases dataOf_base hapi hbase with heq | ⟨hempty, -⟩
        · rw [heq, hmatch]
        · rw [hempty]
  · rw [if_neg hremote, Option.map_none, Option.none_or]
    refine (dataOf_base hapi hbase).imp id ?_
    rintro ⟨hempty, hfound, hcached⟩
    exact ⟨hempty, hremote, hfound, hcached⟩

/-- A document that the answer does not have was there at the snapshot. -/
theorem cachedMatch_of_missing {cache₀ : RemoteDocumentCache} {changes : List CacheChange}
    (hodd : query.path.length % 2 = 1)
    (hchanges : store.remoteDocumentCache = changes.foldl CacheChange.apply cache₀)
    (hafter : ∀ c ∈ changes, c.ReadAfter snapshot) (hsnapshot : snapshot ≠ 0)
    (hfound : ¬Found store.remoteDocumentCache query snapshot key)
    (hcached : store.view s key = store.remoteDocumentCache.get key) {d : Document}
    (hd : resultOf query store s key = some d) : cachedMatch query cache₀ key = some d := by
  rw [resultOf, hcached] at hd
  obtain ⟨doc, hdoc, hmatch⟩ := Option.bind_eq_some_iff.mp hd
  have hentry : matchesEntry query ⟨key, doc⟩ := by
    have hmap := map_toEntry_matching query key (some doc)
    rw [Option.bind_some, hmatch, Option.filter_some] at hmap
    by_contra hnot
    rw [if_neg hnot] at hmap
    cases hmap
  have hmem := get_eq_some_iff.mp hdoc
  rw [hchanges] at hmem
  rcases covered_foldl hafter _ hmem (isImmediateParentOf_of_matchesEntry hodd hentry)
    with hold | hsince
  · rw [cachedMatch, get_eq_some_iff.mpr hold]
    exact hmatch
  · rw [← hchanges] at hsince
    refine absurd ?_ hfound
    rw [Found, if_pos hsnapshot]
    exact hsince

/-- Where the engine need not refill, all documents of the target still match. -/
theorem keySet_of_not_needsRefill {type : LimitType}
    (hprevious : Previous store s query remoteKeys previous)
    (hfull : needsRefill type previous remoteKeys snapshot = false) :
    previous.keySet = remoteKeys := by
  have hcard : remoteKeys.card = previous.size := by
    unfold needsRefill at hfull
    by_contra hne
    rw [if_pos hne] at hfull
    cases hfull
  refine Finset.eq_of_subset_of_card_le ?_ ?_
  · intro key hkey
    by_contra hout
    rw [previous.mem_keySet, hprevious key, if_neg hout] at hkey
    cases hkey
  · rw [hcard, previous.card_keySet]

/-- The document at the edge has not changed since the snapshot. -/
theorem cachedMatch_of_edge {cache₀ : RemoteDocumentCache} {changes : List CacheChange}
    (hchanges : store.remoteDocumentCache = changes.foldl CacheChange.apply cache₀)
    (hnewer : ∀ c ∈ changes, c.NewerThan snapshot remoteKeys) {type : LimitType}
    (hprevious : Previous store s query remoteKeys previous)
    (hfull : needsRefill type previous remoteKeys snapshot = false) {m : Document}
    (hm : limitEdge type previous = some m) : cachedMatch query cache₀ m.key = some m := by
  have hget := previous.getDocument_of_mem (lt_limitEdge hm).1
  have hkeys := keySet_of_not_needsRefill hprevious hfull
  have hkey : m.key ∈ remoteKeys := by
    rw [← hkeys, previous.mem_keySet, hget]
    rfl
  rw [hprevious, if_pos hkey, resultOf] at hget
  obtain ⟨doc, hdoc, hmatch⟩ := Option.bind_eq_some_iff.mp hget
  -- the edge has no pending writes, and a version of the snapshot
  have hedge : m.hasPendingWrites = false ∧ m.version ≤ snapshot := by
    unfold needsRefill at hfull
    split at hfull
    · cases hfull
    · rw [hm, Option.any_some, Bool.or_eq_false_iff, decide_eq_false_iff_not] at hfull
      exact ⟨hfull.1, not_lt.mp hfull.2⟩
  have hstate : m.state = .kSynced := by
    have hpending := hedge.1
    unfold Document.hasPendingWrites Document.hasLocalMutations
      Document.hasCommittedMutations at hpending
    cases hstate : m.state with
    | kLocalMutations => simp [hstate] at hpending
    | kCommittedMutations => simp [hstate] at hpending
    | kSynced => rfl
  have hentry : doc = .document m.data m.version m.state :=
    congrArg KeyedDocument.document (toEntry_of_matching hmatch).symm
  rw [hentry, hstate] at hdoc hmatch
  have hcache := get_of_view_synced hdoc
  rw [hchanges] at hcache
  have hold : cache₀.get m.key = some (.document m.data m.version .kSynced) :=
    get_of_version_le hnewer hkey hedge.2 hcache
  rw [cachedMatch, hold]
  exact hmatch

/-- All documents of the target come before one that was left out. -/
theorem le_card_before {cache₀ : RemoteDocumentCache} {changes : List CacheChange}
    (hchanges : store.remoteDocumentCache = changes.foldl CacheChange.apply cache₀)
    (hnewer : ∀ c ∈ changes, c.NewerThan snapshot remoteKeys) {type : LimitType}
    (hprevious : Previous store s query remoteKeys previous)
    (hfull : needsRefill type previous remoteKeys snapshot = false)
    {place : κ ⊕ₗ κᵒᵈ} (hbehind : ∀ key ∈ remoteKeys, ∃ d,
      cachedMatch query cache₀ key = some d ∧ limitPlace type comparator d < place)
    {contents : List (DocumentKey × ObjectValue)}
    (hcontents : ∀ d ∈ previous.documents, (d.key, d.data) ∈ contents) :
    remoteKeys.card ≤ (contents.toFinset.filter fun p =>
      towards type (placeOf comparator p) < place).card := by
  have hkeys := keySet_of_not_needsRefill hprevious hfull
  rw [← hkeys, previous.card_keySet, ← card_documents]
  refine Finset.card_le_card_of_injOn (fun d => (d.key, d.data)) ?_ ?_
  · intro d hd
    have hmem := List.mem_toFinset.mp hd
    obtain ⟨m, hm⟩ := limitEdge_of_mem type hmem
    have hedge := cachedMatch_of_edge hchanges hnewer hprevious hfull hm
    have hlt : limitPlace type comparator m < place := by
      have hkey : m.key ∈ remoteKeys := by
        rw [← hkeys, previous.mem_keySet, previous.getDocument_of_mem (lt_limitEdge hm).1]
        rfl
      obtain ⟨m', hm', hlt⟩ := hbehind m.key hkey
      cases hedge.symm.trans hm'
      exact hlt
    refine Finset.mem_coe.mpr (Finset.mem_filter.mpr
      ⟨List.mem_toFinset.mpr (hcontents d hmem), ?_⟩)
    rw [placeOf_eq]
    by_cases hsame : d = m
    · exact hsame ▸ hlt
    · exact ((lt_limitEdge hm).2 d hmem hsame).trans hlt
  · intro d hd e he heq
    exact previous.unique d (List.mem_toFinset.mp hd) e (List.mem_toFinset.mp he)
      (congrArg Prod.fst heq)

/-- The answer has the documents of the target. -/
theorem mem_contents_of_previous (hprevious : Previous store s query remoteKeys previous)
    (updated : DocumentMap) {d : Document} (hd : d ∈ previous.documents) :
    (d.key, d.data) ∈ (applyQuery comparator query
      (previous.documents.foldl (fun docs d => docs.put d.toEntry) updated)).contents := by
  have hget := previous.getDocument_of_mem hd
  rw [DocumentSet.mem_contents, getDocument_applyQuery, find_merge, hget]
  rw [hprevious d.key] at hget
  have hmatch : matching query d.toEntry = some d := by
    split at hget
    · obtain ⟨doc, -, hmatch⟩ := Option.bind_eq_some_iff.mp hget
      rw [toEntry_of_matching hmatch, hmatch]
    · cases hget
  show (matching query d.toEntry).map _ = _
  rw [hmatch]
  rfl

/-- At each key the answer is right, or it misses a document that matched at the
snapshot already and is not in the target. -/
def Answers (store : LocalStore) (s : PendingBatches) (query : Query)
    (cache₀ : RemoteDocumentCache) (remoteKeys : Finset DocumentKey)
    (docs full : DocumentMap) : Prop :=
  ∀ key, dataOf (docs.find key) = dataOf (full.find key) ∨
    docs.find key = none ∧ ∀ d, resultOf query store s key = some d →
      key ∉ remoteKeys ∧ cachedMatch query cache₀ key = some d

section Answers

variable {cache₀ : RemoteDocumentCache} {docs full : DocumentMap}

theorem sameData_applyQuery (comparator : DocumentComparator κ) (query : Query)
    (heq : dataOf (docs.find key) = dataOf (full.find key)) :
    ((applyQuery comparator query docs).getDocument key).map (·.data) =
      ((applyQuery comparator query full).getDocument key).map (·.data) := by
  rw [data_applyQuery, data_applyQuery, heq]

/-- Without a limit nothing is missed. -/
theorem Answers.data_eq (h : Answers store s query cache₀ remoteKeys docs full)
    (hfull : ∀ key, full.find key =
      (store.view s key).filter fun doc => matchesEntry query ⟨key, doc⟩)
    (htarget : TargetOf comparator query cache₀ remoteKeys) (hlimit : query.limit = none)
    (key : DocumentKey) : dataOf (docs.find key) = dataOf (full.find key) := by
  rcases h key with heq | ⟨hempty, hmissing⟩
  · exact heq
  · rw [hempty, hfull, ← map_data_matching]
    cases hmatch : (store.view s key).bind fun doc => matching query ⟨key, doc⟩ with
    | none => rfl
    | some d =>
        obtain ⟨hremote, hcached⟩ := hmissing d hmatch
        rcases htarget key d hcached with hmem | ⟨limit, hmem, -⟩
        · exact absurd hmem hremote
        · rw [hlimit] at hmem
          cases hmem

/-- With a limit, what is missed would be left out. -/
theorem Answers.limitTo_eq (h : Answers store s query cache₀ remoteKeys docs full)
    (hfull : ∀ key, full.find key =
      (store.view s key).filter fun doc => matchesEntry query ⟨key, doc⟩)
    (htarget : TargetOf comparator query cache₀ remoteKeys) {limit : Limit}
    (hlimit : query.limit = some limit)
    (hmany : ∀ place, (∀ key ∈ remoteKeys, ∃ d, cachedMatch query cache₀ key = some d ∧
        limitPlace limit.type comparator d < place) →
      remoteKeys.card ≤ ((applyQuery comparator query docs).contents.toFinset.filter fun p =>
        towards limit.type (placeOf comparator p) < place).card) :
    limitTo (some limit) (applyQuery comparator query docs).contents =
      limitTo (some limit) (applyQuery comparator query full).contents := by
  refine limitTo_eq_of_many (DocumentSet.pairwise_contents _)
    (DocumentSet.pairwise_contents _) ?_ ?_
  · rintro ⟨key, data⟩ hmem
    rw [DocumentSet.mem_contents] at hmem ⊢
    rcases h key with heq | ⟨hempty, -⟩
    · rw [← sameData_applyQuery comparator query heq, hmem]
    · rw [getDocument_applyQuery, hempty] at hmem
      cases hmem
  · rintro ⟨key, data⟩ hmem hout
    rw [DocumentSet.mem_contents] at hmem hout
    rcases h key with heq | ⟨-, hmissing⟩
    · exact absurd ((sameData_applyQuery comparator query heq).trans hmem) hout
    · obtain ⟨d, hd, rfl⟩ := Option.map_eq_some_iff.mp hmem
      rw [getDocument_applyQuery, hfull, bind_matching_filter] at hd
      obtain ⟨hremote, hcached⟩ := hmissing d hd
      have hkey : d.key = key := by
        obtain ⟨doc, -, hmatch⟩ := Option.bind_eq_some_iff.mp hd
        exact key_of_matching hmatch
      subst hkey
      rcases htarget d.key d hcached with hin | ⟨limit', hmem', hcount, hbehind⟩
      · exact absurd hin hremote
      · cases hmem'.symm.trans hlimit
        rw [placeOf_eq]
        exact hcount.trans (hmany _ hbehind)

end Answers

/-- **Answers from a snapshot.**  Let all documents that matched in the cache at the
snapshot be in the target, or behind it where a limit left them out; let the cache
have since then only been changed at later read times and, if there is a limit, in
documents of the target to later versions.  Then the query finds the data that the
plain scan finds, as far as the limit goes. -/
theorem indexFree {cache₀ : RemoteDocumentCache} {changes : List CacheChange}
    (h : store.mutationQueue.Represents s) (hodd : query.path.length % 2 = 1)
    (hapi : ∀ b ∈ s.batches, ∀ m ∈ b.mutations, m.OfApi)
    (hchanges : store.remoteDocumentCache = changes.foldl CacheChange.apply cache₀)
    (hafter : ∀ c ∈ changes, c.ReadAfter snapshot)
    (hnewer : query.limit ≠ none → ∀ c ∈ changes, c.NewerThan snapshot remoteKeys)
    (htarget : TargetOf comparator query cache₀ remoteKeys) :
    ∃ docs full,
      getDocumentsMatchingQuery comparator store query snapshot remoteKeys = .ok docs ∧
      executeFullCollectionScan store query = .ok full ∧
      limitTo query.limit (applyQuery comparator query docs).contents =
        limitTo query.limit (applyQuery comparator query full).contents ∧
      (query.limit = none → ∀ key, dataOf (docs.find key) = dataOf (full.find key)) := by
  obtain ⟨full, hfull, hview⟩ := fullScan h hodd
  by_cases hall : query.matchesAllDocuments
  · exact ⟨full, full, by rw [getDocumentsMatchingQuery, if_pos hall, hfull], hfull, rfl,
      fun _ _ => rfl⟩
  by_cases hnone : snapshot = 0
  · exact ⟨full, full, by rw [getDocumentsMatchingQuery, if_neg hall, if_pos hnone, hfull],
      hfull, rfl, fun _ _ => rfl⟩
  obtain ⟨documents, hdocuments, hprevious⟩ := previous_applyQuery comparator h query remoteKeys
  obtain ⟨updated, hupdated, hbase⟩ := documentsMatchingQuery_ok h hodd snapshot
  have hrun : getDocumentsMatchingQuery comparator store query snapshot remoteKeys =
      if query.limit.any fun limit => needsRefill limit.type
          (applyQuery comparator query documents) remoteKeys snapshot then .ok full
      else .ok ((applyQuery comparator query documents).documents.foldl
        (fun results d => results.put d.toEntry) updated) := by
    rw [getDocumentsMatchingQuery, if_neg hall, if_neg hnone, hdocuments]
    simp only [Except.bind, hfull, hupdated]
  by_cases hrefill : query.limit.any fun limit => needsRefill limit.type
      (applyQuery comparator query documents) remoteKeys snapshot
  · exact ⟨full, full, by rw [hrun, if_pos hrefill], hfull, rfl, fun _ _ => rfl⟩
  rw [if_neg hrefill] at hrun
  have hanswers : Answers store s query cache₀ remoteKeys
      ((applyQuery comparator query documents).documents.foldl
        (fun results d => results.put d.toEntry) updated) full := by
    intro key
    obtain ⟨base, hkeyBase, hkeyFind⟩ := hbase key
    rw [hview]
    refine (answer_at hapi hprevious hkeyBase hkeyFind).imp id ?_
    rintro ⟨hempty, hremote, hfound, hcached⟩
    exact ⟨hempty, fun d hd => ⟨hremote,
      cachedMatch_of_missing hodd hchanges hafter hnone hfound hcached hd⟩⟩
  refine ⟨_, full, hrun, hfull, ?_⟩
  cases hlimit : query.limit with
  | none =>
      have hsame := hanswers.data_eq hview htarget hlimit
      exact ⟨DocumentSet.SameData.contents_eq fun key =>
        sameData_applyQuery comparator query (hsame key), fun _ => hsame⟩
  | some limit =>
      refine ⟨hanswers.limitTo_eq hview htarget hlimit fun place hbehind => ?_,
        fun h => (by cases h)⟩
      rw [hlimit, Option.any_some, Bool.not_eq_true] at hrefill
      exact le_card_before hchanges (hnewer (by simp [hlimit])) hprevious hrefill hbehind
        fun d hd => mem_contents_of_previous hprevious updated hd

end Agreement

/-- Numbers compare as numbers; the rest is left as one. -/
def numberOf : Value → Rat
  | .number q => q
  | _ => 0

/-- The first of the clues that are found. -/
def firstUnlocked : Query := { unlockedClues with limit := some ⟨.first, 1⟩ }

/-- The order of the clues that are found. -/
abbrev byNumber := Query.comparator numberOf firstUnlocked

/-- At the snapshot the second clue and the third are found, and the second is in
the target. -/
def snapshotClues : RemoteDocumentCache :=
  (cachedClues.add (clueKey "Clue2") (clueDocument false 2 2) 3).add (clueKey "Clue3")
    (clueDocument false 3 2) 3

/-- Then the fourth clue is read, and unlocking the first waits in the queue. -/
def laterStore : LocalStore :=
  { huntStore with
    remoteDocumentCache := snapshotClues.add (clueKey "Clue4") (clueDocument false 4 5) 6 }

theorem targetOf_snapshotClues :
    TargetOf byNumber firstUnlocked snapshotClues {clueKey "Clue2"} := by
  intro key d hd
  obtain ⟨doc, hdoc, -⟩ := Option.bind_eq_some_iff.mp hd
  have hrow := get_eq_some_iff.mp hdoc
  have hrows : snapshotClues.documents.rows =
      [⟨clueKey "Clue1", clueDocument true 1 2⟩, ⟨clueKey "Clue2", clueDocument false 2 2⟩,
        ⟨clueKey "Clue3", clueDocument false 3 2⟩] := by decide
  rw [hrows] at hrow
  rcases List.mem_cons.mp hrow with hkey | hrow
  · have hnone : cachedMatch firstUnlocked snapshotClues (clueKey "Clue1") = none := by decide
    cases hkey
    rw [hnone] at hd
    cases hd
  · rcases List.mem_cons.mp hrow with hkey | hrow
    · cases hkey
      exact .inl (Finset.mem_singleton_self _)
    · cases List.mem_singleton.mp hrow
      refine .inr ⟨⟨.first, 1⟩, rfl, le_rfl, fun key' hkey' => ?_⟩
      cases Finset.mem_singleton.mp hkey'
      have hthird : cachedMatch firstUnlocked snapshotClues (clueKey "Clue3") =
          toDocument ⟨clueKey "Clue3", clueDocument false 3 2⟩ := by decide
      cases hthird.symm.trans hd
      have hsecond : cachedMatch firstUnlocked snapshotClues (clueKey "Clue2") =
          toDocument ⟨clueKey "Clue2", clueDocument false 2 2⟩ := by decide
      exact ⟨_, hsecond, by decide⟩

/-- The edge of the limit has not changed. -/
theorem indexFree_laterStore : ∃ docs full,
    getDocumentsMatchingQuery byNumber laterStore firstUnlocked 4 {clueKey "Clue2"} =
      .ok docs ∧
    executeFullCollectionScan laterStore firstUnlocked = .ok full ∧
    limitTo (some ⟨.first, 1⟩) (applyQuery byNumber firstUnlocked docs).contents =
      limitTo (some ⟨.first, 1⟩) (applyQuery byNumber firstUnlocked full).contents := by
  have hafter : ∀ c ∈ [CacheChange.add (clueKey "Clue4") (clueDocument false 4 5) 6],
      c.ReadAfter 4 := by
    intro c hc
    cases List.mem_singleton.mp hc
    exact show 4 < 6 by decide
  have hnewer : ∀ c ∈ [CacheChange.add (clueKey "Clue4") (clueDocument false 4 5) 6],
      c.NewerThan 4 {clueKey "Clue2"} := by
    intro c hc
    cases List.mem_singleton.mp hc
    exact fun _ => show 4 < 5 by decide
  have hapi : ∀ b ∈ unlockWaits.batches, ∀ m ∈ b.mutations, m.OfApi := by
    intro b hb m hm
    cases List.mem_singleton.mp hb
    cases List.mem_singleton.mp hm
    exact ofApi_toMutation _
  obtain ⟨docs, full, hdocs, hfull, hsame, -⟩ :=
    indexFree (show laterStore.mutationQueue.Represents unlockWaits from huntStore_represents)
      (show firstUnlocked.path.length % 2 = 1 from rfl) hapi
      (show laterStore.remoteDocumentCache = List.foldl CacheChange.apply snapshotClues _
        from rfl)
      hafter (fun _ => hnewer) targetOf_snapshotClues
  exact ⟨docs, full, hdocs, hfull, hsame⟩

end ValentinesDay.Ports.QueryEngine
