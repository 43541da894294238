import Mathlib.Data.String.Basic
import Mathlib.Data.Prod.Lex
import ValentinesDay.Ports.Queries
import ValentinesDay.Verified.Fallible
import ValentinesDay.Verified.OrderedTable
import ValentinesDay.Verified.Run

/-!
# The queue of mutations that the backend has not answered

Two implementations of one interface.  `LevelDbMutationQueue`, which the app
runs on, has a table of batches by ID and an index table from documents to
batch IDs; what affects a document is found by a scan over the index and a
skipping scan over the batches.  `MemoryMutationQueue` has a vector whose
positions are computed from the IDs, and the same index.

A batch ID is positive, and `kBatchIdUnknown` is `none`.  User names and stream
tokens are left out, and so is the assertion that a query is not of a collection
group, which no query of the model is.
-/

namespace ValentinesDay.Ports.MutationQueue

open ValentinesDay.Verified.OrderedTable
open ValentinesDay.Ports.Runtime
open ValentinesDay.Ports.Firestore
open ValentinesDay.Ports.Mutations
open ValentinesDay.Ports.Queries

/-! ## Batches and the index -/

/-- `MutationBatch`: the mutations of one call of the app, under their number. -/
structure MutationBatch where
  batchId : Nat
  mutations : List Mutation
  deriving DecidableEq

/-- `batch_id + 1`, where `kBatchIdUnknown` is -1. -/
def batchIdAfter : Option Nat → Nat
  | none => 0
  | some batchId => batchId + 1

/-- Some mutation of the batch is of the document. -/
def MutationBatch.affects (batch : MutationBatch) (key : DocumentKey) : Bool :=
  batch.mutations.any fun m => m.key = key

/-- `DocumentKeyReference`: a document and a batch that affects it. -/
structure DocumentKeyReference where
  key : DocumentKey
  refId : Nat
  deriving DecidableEq

/-- `DocumentKeyReference::ByKey`: by path, segment by segment, then by ID. -/
def DocumentKeyReference.byKey (r : DocumentKeyReference) : List String ×ₗ Nat :=
  toLex (r.key.path, r.refId)

theorem byKey_injective {r s : DocumentKeyReference} (h : r.byKey = s.byKey) : r = s := by
  obtain ⟨⟨path, hpath⟩, id⟩ := r
  obtain ⟨⟨path', hpath'⟩, id'⟩ := s
  simp only [DocumentKeyReference.byKey, EmbeddingLike.apply_eq_iff_eq,
    Prod.mk.injEq] at h
  obtain ⟨rfl, rfl⟩ := h
  rfl

/-- The table `document_mutation` of LevelDB, and the sorted set
`batches_by_document_key_` in memory. -/
abbrev DocumentIndex := Table DocumentKeyReference.byKey

/-- The references of one document, read from its first possible one. -/
def DocumentIndex.ofKey (index : DocumentIndex) (key : DocumentKey) : List Nat :=
  (index.scan (toLex (key.path, 0)) fun r => r.key = key).map (·.refId)

/-- The references below a collection, read from `start`, of the documents
that are directly in it. -/
def DocumentIndex.below (index : DocumentIndex) (start path : ResourcePath) :
    List Nat :=
  ((index.scan (toLex (start, 0)) fun r => path.isPrefixOf r.key.path).filter
    fun r => r.key.path.length = path.length + 1).map (·.refId)

/-- One reference for each mutation of a new batch. -/
def DocumentIndex.add (index : DocumentIndex) (batch : MutationBatch) : DocumentIndex :=
  batch.mutations.foldl (fun index m => index.put ⟨m.key, batch.batchId⟩) index

/-- The references of a batch that leaves. -/
def DocumentIndex.remove (index : DocumentIndex) (batch : MutationBatch) : DocumentIndex :=
  batch.mutations.foldl
    (fun index m => index.delete (DocumentKeyReference.byKey ⟨m.key, batch.batchId⟩)) index

/-! ## Calls and answers -/

/-- `AcknowledgeBatch` and `RemoveMutationBatch` are given a batch, the others
what they look for. -/
inductive QueueCall where
  | start
  | addMutationBatch (mutations : List Mutation)
  | acknowledgeBatch (batch : MutationBatch)
  | removeMutationBatch (batch : MutationBatch)
  | performConsistencyCheck
  | allMutationBatches
  | lookupMutationBatch (batchId : Nat)
  | nextMutationBatchAfterBatchId (batchId : Option Nat)
  | getHighestUnacknowledgedBatchId
  | allMutationBatchesAffectingDocumentKey (key : DocumentKey)
  | allMutationBatchesAffectingDocumentKeys (keys : List DocumentKey)
  | allMutationBatchesAffectingQuery (query : Query)

/-- What the calls return. -/
inductive QueueAnswer where
  | done
  | batchId (batchId : Option Nat)
  | batch (batch : Option MutationBatch)
  | batches (batches : List MutationBatch)
  deriving DecidableEq

/-- The `MutationBatch` constructor. -/
def mutationBatch (batchId : Nat) (mutations : List Mutation) :
    Except Crash MutationBatch :=
  if mutations = [] then .error (.hardAssert "Cannot create an empty mutation batch")
  else .ok ⟨batchId, mutations⟩

/-! ## On LevelDB -/

/-- `LevelDbMutationQueue`, with the rows of its two tables. -/
structure LevelDbMutationQueue where
  nextBatchId : Nat
  mutations : Table MutationBatch.batchId
  documentMutations : DocumentIndex

namespace LevelDbMutationQueue

variable (q : LevelDbMutationQueue)

/-- `LoadNextBatchIdFromDb`: after the ID of the last row. -/
def loadNextBatchIdFromDb : Nat :=
  (match q.mutations.rows.getLast? with
    | none => 0
    | some row => if row.batchId > 0 then row.batchId else 0) + 1

/-- `Start`. -/
def start : LevelDbMutationQueue := { q with nextBatchId := q.loadNextBatchIdFromDb }

/-- `AddMutationBatch`. -/
def addMutationBatch (mutations : List Mutation) :
    Except Crash (MutationBatch × LevelDbMutationQueue) :=
  (mutationBatch q.nextBatchId mutations).bind fun batch =>
    .ok (batch,
      { nextBatchId := q.nextBatchId + 1
        mutations := q.mutations.put batch
        documentMutations := q.documentMutations.add batch })

/-- `RemoveMutationBatch`: the first row from the number on must be the batch. -/
def removeMutationBatch (batch : MutationBatch) : Except Crash LevelDbMutationQueue :=
  match (q.mutations.seek batch.batchId).head? with
  | none => .error (.hardAssert "Mutation batch did not exist")
  | some row =>
      if row.batchId ≠ batch.batchId then .error (.hardAssert "Mutation batch not found")
      else .ok
        { q with
          mutations := q.mutations.delete batch.batchId
          documentMutations := q.documentMutations.remove batch }

/-- `PerformConsistencyCheck`. -/
def performConsistencyCheck : Except Crash Unit :=
  if q.mutations.rows = [] ∧ q.documentMutations.rows ≠ [] then
    .error (.hardAssert ("Document leak -- detected dangling mutation references when " ++
      "queue is empty."))
  else .ok ()

/-- `LookupMutationBatch`. -/
def lookupMutationBatch (batchId : Nat) : Option MutationBatch :=
  q.mutations.get batchId

/-- `NextMutationBatchAfterBatchId`. -/
def nextMutationBatchAfterBatchId (batchId : Option Nat) : Option MutationBatch :=
  (q.mutations.seek (batchIdAfter batchId)).head?

/-- `GetHighestUnacknowledgedBatchId`. -/
def getHighestUnacknowledgedBatchId : Option Nat :=
  q.mutations.rows.getLast?.map (·.batchId)

/-- `AllMutationBatchesWithIds`, a skipping scan: the set of IDs is read in order. -/
def allMutationBatchesWithIds (batchIds : Finset Nat) :
    Except Crash (List MutationBatch) :=
  batchIds.sort.mapM fun batchId => (q.mutations.get batchId).elim
    (.error (.hardAssert "Dangling document-mutation reference found: Missing batch")) .ok

/-- `AllMutationBatchesAffectingDocumentKeys`, and with one key
`AllMutationBatchesAffectingDocumentKey`. -/
def allMutationBatchesAffectingDocumentKeys (keys : List DocumentKey) :
    Except Crash (List MutationBatch) :=
  q.allMutationBatchesWithIds (keys.flatMap q.documentMutations.ofKey).toFinset

/-- `AllMutationBatchesAffectingQuery`. -/
def allMutationBatchesAffectingQuery (query : Query) :
    Except Crash (List MutationBatch) :=
  if query.isDocumentQuery then
    .error (.hardAssert "Document queries shouldn't go down this path")
  else
    q.allMutationBatchesWithIds (q.documentMutations.below query.path query.path).toFinset

/-- A call of the interface `MutationQueue`; an acknowledgement leaves nothing but a
stream token behind. -/
def call : QueueCall → Except Crash (QueueAnswer × LevelDbMutationQueue)
  | .start => .ok (.done, q.start)
  | .addMutationBatch mutations =>
      (q.addMutationBatch mutations).bind fun r => .ok (.batch (some r.1), r.2)
  | .acknowledgeBatch _ => .ok (.done, q)
  | .removeMutationBatch batch => (q.removeMutationBatch batch).bind fun q' => .ok (.done, q')
  | .performConsistencyCheck => q.performConsistencyCheck.bind fun _ => .ok (.done, q)
  | .allMutationBatches => .ok (.batches q.mutations.rows, q)
  | .lookupMutationBatch batchId => .ok (.batch (q.lookupMutationBatch batchId), q)
  | .nextMutationBatchAfterBatchId batchId =>
      .ok (.batch (q.nextMutationBatchAfterBatchId batchId), q)
  | .getHighestUnacknowledgedBatchId => .ok (.batchId q.getHighestUnacknowledgedBatchId, q)
  | .allMutationBatchesAffectingDocumentKey key =>
      (q.allMutationBatchesAffectingDocumentKeys [key]).bind fun bs => .ok (.batches bs, q)
  | .allMutationBatchesAffectingDocumentKeys keys =>
      (q.allMutationBatchesAffectingDocumentKeys keys).bind fun bs => .ok (.batches bs, q)
  | .allMutationBatchesAffectingQuery query =>
      (q.allMutationBatchesAffectingQuery query).bind fun bs => .ok (.batches bs, q)

end LevelDbMutationQueue

/-! ## In memory -/

/-- `MemoryMutationQueue`. -/
structure MemoryMutationQueue where
  nextBatchId : Nat
  queue : List MutationBatch
  batchesByDocumentKey : DocumentIndex

namespace MemoryMutationQueue

variable (q : MemoryMutationQueue)

/-- `Start`: the numbers begin anew when nothing is pending. -/
def start : MemoryMutationQueue :=
  if q.queue = [] then { q with nextBatchId := 1 } else q

/-- `AddMutationBatch`. -/
def addMutationBatch (mutations : List Mutation) :
    Except Crash (MutationBatch × MemoryMutationQueue) :=
  if mutations = [] then .error (.hardAssert "Mutation batches should not be empty")
  else if ∀ prior ∈ q.queue.getLast?, prior.batchId < q.nextBatchId then
    (mutationBatch q.nextBatchId mutations).bind fun batch =>
      .ok (batch,
        { nextBatchId := q.nextBatchId + 1
          queue := q.queue ++ [batch]
          batchesByDocumentKey := q.batchesByDocumentKey.add batch })
  else .error (.hardAssert "Mutation batch_ids must be in monotonically increasing order")

/-- `AcknowledgeBatch`. -/
def acknowledgeBatch (batch : MutationBatch) : Except Crash Unit :=
  match q.queue.head? with
  | none => .error (.hardAssert "Cannot acknowledge batch on an empty queue")
  | some check =>
      if batch.batchId = check.batchId then .ok ()
      else .error (.hardAssert "Queue ordering failure")

/-- `RemoveMutationBatch`: only from the front. -/
def removeMutationBatch (batch : MutationBatch) : Except Crash MemoryMutationQueue :=
  match q.queue.head? with
  | none => .error (.hardAssert "Trying to remove batch from empty queue")
  | some head =>
      if head.batchId = batch.batchId then
        .ok
          { q with
            queue := q.queue.tail
            batchesByDocumentKey := q.batchesByDocumentKey.remove batch }
      else .error (.hardAssert "Can only remove the first entry of the mutation queue")

/-- `PerformConsistencyCheck`. -/
def performConsistencyCheck : Except Crash Unit :=
  if q.queue = [] ∧ q.batchesByDocumentKey.rows ≠ [] then
    .error (.hardAssert ("Document leak -- detected dangling mutation references when " ++
      "queue is empty."))
  else .ok ()

/-- `IndexOfBatchId`: how far an ID is from the front; negative for one that has
left. -/
def indexOfBatchId (batchId : Nat) : Int :=
  match q.queue with
  | [] => 0
  | firstBatch :: _ => (batchId : Int) - firstBatch.batchId

/-- `LookupMutationBatch`: the position is computed from the number. -/
def lookupMutationBatch (batchId : Nat) : Except Crash (Option MutationBatch) :=
  if q.queue = [] then .ok none
  else
    let index := q.indexOfBatchId batchId
    if index < 0 then .ok none
    else
      match q.queue[index.toNat]? with
      | none => .ok none
      | some batch =>
          if batch.batchId = batchId then .ok (some batch)
          else .error (.hardAssert "If found, batch must match")

/-- `NextMutationBatchAfterBatchId`. -/
def nextMutationBatchAfterBatchId (batchId : Option Nat) : Option MutationBatch :=
  let rawIndex := q.indexOfBatchId (batchIdAfter batchId)
  q.queue[if rawIndex < 0 then 0 else rawIndex.toNat]?

/-- `GetHighestUnacknowledgedBatchId`. -/
def getHighestUnacknowledgedBatchId : Option Nat :=
  if q.queue = [] then none else some (q.nextBatchId - 1)

/-- `AllMutationBatchesWithIds`; numbers that are not found are skipped. -/
def allMutationBatchesWithIds (batchIds : Finset Nat) :
    Except Crash (List MutationBatch) :=
  (batchIds.sort.mapM q.lookupMutationBatch).map fun found => found.filterMap id

/-- `AllMutationBatchesAffectingDocumentKey`. -/
def allMutationBatchesAffectingDocumentKey (key : DocumentKey) :
    Except Crash (List MutationBatch) :=
  (q.batchesByDocumentKey.ofKey key).mapM fun batchId =>
    (q.lookupMutationBatch batchId).bind fun found => found.elim
      (.error (.hardAssert "Batches in the index must exist in the main table")) .ok

/-- `AllMutationBatchesAffectingDocumentKeys`. -/
def allMutationBatchesAffectingDocumentKeys (keys : List DocumentKey) :
    Except Crash (List MutationBatch) :=
  q.allMutationBatchesWithIds (keys.flatMap q.batchesByDocumentKey.ofKey).toFinset

/-- `AllMutationBatchesAffectingQuery`: the scan starts at an empty segment below
the path, unless the path is itself that of a document.  Nothing is asserted of a
query of one document. -/
def allMutationBatchesAffectingQuery (query : Query) :
    Except Crash (List MutationBatch) :=
  let startPath := if query.path.length % 2 = 0 then query.path else query.path ++ [""]
  q.allMutationBatchesWithIds (q.batchesByDocumentKey.below startPath query.path).toFinset

/-- A call of the interface `MutationQueue`. -/
def call : QueueCall → Except Crash (QueueAnswer × MemoryMutationQueue)
  | .start => .ok (.done, q.start)
  | .addMutationBatch mutations =>
      (q.addMutationBatch mutations).bind fun r => .ok (.batch (some r.1), r.2)
  | .acknowledgeBatch batch => (q.acknowledgeBatch batch).bind fun _ => .ok (.done, q)
  | .removeMutationBatch batch => (q.removeMutationBatch batch).bind fun q' => .ok (.done, q')
  | .performConsistencyCheck => q.performConsistencyCheck.bind fun _ => .ok (.done, q)
  | .allMutationBatches => .ok (.batches q.queue, q)
  | .lookupMutationBatch batchId =>
      (q.lookupMutationBatch batchId).bind fun found => .ok (.batch found, q)
  | .nextMutationBatchAfterBatchId batchId =>
      .ok (.batch (q.nextMutationBatchAfterBatchId batchId), q)
  | .getHighestUnacknowledgedBatchId => .ok (.batchId q.getHighestUnacknowledgedBatchId, q)
  | .allMutationBatchesAffectingDocumentKey key =>
      (q.allMutationBatchesAffectingDocumentKey key).bind fun bs => .ok (.batches bs, q)
  | .allMutationBatchesAffectingDocumentKeys keys =>
      (q.allMutationBatchesAffectingDocumentKeys keys).bind fun bs => .ok (.batches bs, q)
  | .allMutationBatchesAffectingQuery query =>
      (q.allMutationBatchesAffectingQuery query).bind fun bs => .ok (.batches bs, q)

end MemoryMutationQueue

end ValentinesDay.Ports.MutationQueue
