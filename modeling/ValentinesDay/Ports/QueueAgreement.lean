import ValentinesDay.Ports.PendingBatches

/-!
# The two mutation queues agree

Both implementations answer every call as the list of pending batches does, and
hold the list again; so they answer every run of calls alike.

## Main results

* `queues_agree` — in a run of calls neither implementation fails an assertion,
  and both answer as the list does.
-/

namespace ValentinesDay.Ports.MutationQueue

open ValentinesDay.Verified.OrderedTable
open ValentinesDay.Ports.Runtime
open ValentinesDay.Ports.Firestore
open ValentinesDay.Ports.Mutations
open ValentinesDay.Ports.Queries

/-! ## Both answer as the list does -/

@[simp] theorem PendingBatches.next_pop (s : PendingBatches) : s.pop.next = s.next := by
  show s.first + min 1 s.batches.length + s.batches.tail.length =
    s.first + s.batches.length
  rw [List.length_tail]
  omega

@[simp] theorem PendingBatches.next_push (s : PendingBatches) (mutations : List Mutation)
    (h : mutations ≠ []) : (s.push mutations h).next = s.next + 1 := by
  simp [PendingBatches.next, PendingBatches.push, Nat.add_assoc]

theorem PendingBatches.sorted (s : PendingBatches) :
    s.batches.Pairwise fun b c => b.batchId < c.batchId := by
  have hids : (s.batches.map (·.batchId)).Pairwise (· < ·) := by
    rw [s.consecutive]
    exact List.pairwise_lt_range'
  exact List.pairwise_map.mp hids

/-- The front batch leaves the index, and only it. -/
theorem PendingBatches.indexes_pop (s : PendingBatches) {index : DocumentIndex}
    {b : MutationBatch} {rest : List MutationBatch} (hrest : s.batches = b :: rest)
    (h : Indexes index s.batches) : Indexes (index.remove b) s.pop.batches := by
  have hpop : s.pop.batches = rest := congrArg List.tail hrest
  have hsorted := s.sorted
  rw [hrest] at h hsorted
  rw [hpop]
  refine h.remove ?_
  intro c hc
  exact ne_of_gt ((List.pairwise_cons.mp hsorted).1 c hc)

/-- The batches of a list with these numbers are found by their numbers. -/
theorem PendingBatches.sort_batchIds (s : PendingBatches) (p : MutationBatch → Bool) :
    (((s.batches.filter p).map (·.batchId)).toFinset).sort =
      (s.batches.filter p).map (·.batchId) :=
  sort_image_eq_map (⟨s.batches, s.sorted⟩ : Table MutationBatch.batchId) p

section LevelDb

/-- The tables hold the list. -/
structure LevelDbMutationQueue.Represents (q : LevelDbMutationQueue)
    (s : PendingBatches) : Prop where
  rows : q.mutations.rows = s.batches
  next : q.nextBatchId = s.next
  index : Indexes q.documentMutations s.batches

variable {q : LevelDbMutationQueue} {s : PendingBatches}

theorem LevelDbMutationQueue.Represents.withIds (h : q.Represents s)
    (p : MutationBatch → Bool) :
    q.allMutationBatchesWithIds ((s.batches.filter p).map (·.batchId)).toFinset =
      .ok (s.batches.filter p) := by
  rw [allMutationBatchesWithIds, s.sort_batchIds]
  refine mapM_get q.mutations _ ?_
  intro b hb
  rw [h.rows]
  exact List.mem_of_mem_filter hb

theorem LevelDbMutationQueue.Represents.ofKeys (h : q.Represents s)
    (keys : List DocumentKey) :
    q.allMutationBatchesAffectingDocumentKeys keys =
      .ok (s.batches.filter fun b => keys.any b.affects) := by
  rw [allMutationBatchesAffectingDocumentKeys, h.index.ofKeys_eq s.sorted, h.withIds]

theorem LevelDbMutationQueue.Represents.ofQuery (h : q.Represents s) {query : Query}
    (hquery : ¬query.isDocumentQuery) :
    q.allMutationBatchesAffectingQuery query =
      .ok (s.batches.filter fun b => b.affectsBelow query.path) := by
  rw [allMutationBatchesAffectingQuery, if_neg hquery,
    h.index.below_eq le_rfl fun r _ hprefix => le_of_isPrefix hprefix, h.withIds]

theorem LevelDbMutationQueue.Represents.start (h : q.Represents s) :
    q.start.Represents (if s.batches = [] then PendingBatches.empty else s) := by
  by_cases hempty : s.batches = []
  · rw [if_pos hempty]
    exact
      { rows := h.rows.trans hempty
        next := by
          simp [LevelDbMutationQueue.start, loadNextBatchIdFromDb, h.rows, hempty,
            PendingBatches.next, PendingBatches.empty]
        index := fun r => by
          have hr := h.index r
          rw [hempty] at hr
          exact hr }
  · rw [if_neg hempty]
    refine { rows := h.rows, next := ?_, index := h.index }
    cases hlast : s.batches.getLast? with
    | none => exact absurd (List.getLast?_eq_none_iff.mp hlast) hempty
    | some b =>
        have hnext := s.getLast?_batchId hlast
        have hpos : b.batchId > 0 := by
          obtain ⟨i, hi⟩ := List.mem_iff_getElem?.mp (List.mem_of_getLast? hlast)
          have hid := s.batchId_eq hi
          have hfirst := s.positive
          omega
        simp [LevelDbMutationQueue.start, loadNextBatchIdFromDb, h.rows, hlast, hpos, hnext]

theorem LevelDbMutationQueue.Represents.add (h : q.Represents s)
    {mutations : List Mutation} (hne : mutations ≠ []) :
    ∃ q', q.addMutationBatch mutations = .ok (⟨s.next, mutations⟩, q') ∧
      q'.Represents (s.push mutations hne) := by
  refine
    ⟨{ nextBatchId := q.nextBatchId + 1
       mutations := q.mutations.put ⟨s.next, mutations⟩
       documentMutations := q.documentMutations.add ⟨s.next, mutations⟩ }, ?_, ?_⟩
  · rw [addMutationBatch, mutationBatch, if_neg hne, h.next]
    rfl
  · refine { rows := ?_, next := ?_, index := ?_ }
    · have hlt : ∀ b ∈ q.mutations.rows, b.batchId < s.next := by
        intro b hb
        rw [h.rows] at hb
        exact s.lt_next hb
      exact (q.mutations.put_rows_of_forall_lt hlt).trans
        (congrArg (· ++ [⟨s.next, mutations⟩]) h.rows)
    · exact (congrArg (· + 1) h.next).trans (s.next_push mutations hne).symm
    · exact h.index.add _

theorem LevelDbMutationQueue.Represents.remove (h : q.Represents s) {b : MutationBatch}
    (hb : s.batches.head? = some b) :
    ∃ q', q.removeMutationBatch b = .ok q' ∧ q'.Represents s.pop := by
  obtain ⟨rest, hrest⟩ := List.head?_eq_some_iff.mp hb
  have hmem : b ∈ q.mutations.rows := by
    rw [h.rows, hrest]
    exact List.mem_cons_self
  refine
    ⟨{ q with
       mutations := q.mutations.delete b.batchId
       documentMutations := q.documentMutations.remove b }, ?_, ?_⟩
  · rw [removeMutationBatch, q.mutations.head_seek hmem]
    exact if_neg (fun hne => hne rfl)
  · have hrows : q.mutations.rows = b :: rest := h.rows.trans hrest
    have htail : s.pop.batches = rest := by simp [PendingBatches.pop, hrest]
    refine { rows := ?_, next := ?_, index := ?_ }
    · rw [htail]
      exact q.mutations.delete_rows_of_head hrows
    · exact h.next.trans s.next_pop.symm
    · exact s.indexes_pop hrest h.index

theorem LevelDbMutationQueue.Represents.consistent (h : q.Represents s) :
    q.performConsistencyCheck = .ok () := by
  refine if_neg ?_
  rintro ⟨hempty, hindex⟩
  obtain ⟨r, hr⟩ := List.exists_mem_of_ne_nil _ hindex
  obtain ⟨b, hb, -⟩ := (h.index r).mp hr
  rw [← h.rows, hempty] at hb
  cases hb

end LevelDb

section Memory

/-- The vector is the list. -/
structure MemoryMutationQueue.Represents (q : MemoryMutationQueue)
    (s : PendingBatches) : Prop where
  queue : q.queue = s.batches
  next : q.nextBatchId = s.next
  index : Indexes q.batchesByDocumentKey s.batches

variable {q : MemoryMutationQueue} {s : PendingBatches}

theorem MemoryMutationQueue.Represents.indexOfBatchId (h : q.Represents s)
    (hne : s.batches ≠ []) (batchId : Nat) :
    q.indexOfBatchId batchId = (batchId : Int) - s.first := by
  obtain ⟨b, rest, hs⟩ := List.exists_cons_of_ne_nil hne
  have hfirst : b.batchId = s.first := by
    have hid := s.batchId_eq (i := 0) (b := b) (by rw [hs]; rfl)
    omega
  rw [MemoryMutationQueue.indexOfBatchId, h.queue, hs, ← hfirst]

/-- The position computed from the number is that of the batch. -/
theorem MemoryMutationQueue.Represents.lookup (h : q.Represents s) (batchId : Nat) :
    q.lookupMutationBatch batchId =
      .ok (s.batches.find? fun b => b.batchId = batchId) := by
  unfold lookupMutationBatch
  rw [h.queue]
  by_cases hne : s.batches = []
  · rw [if_pos hne, hne]
    rfl
  · rw [if_neg hne, h.indexOfBatchId hne]
    by_cases hlt : batchId < s.first
    · have hneg : (batchId : Int) - s.first < 0 := by omega
      have hnone : (s.batches.find? fun b => b.batchId = batchId) = none := by
        refine List.find?_eq_none.mpr ?_
        intro b hb heq
        obtain ⟨i, hi⟩ := List.mem_iff_getElem?.mp hb
        have hid := s.batchId_eq hi
        have hbid : b.batchId = batchId := of_decide_eq_true heq
        omega
      simp only [if_pos hneg, hnone]
    · have hneg : ¬(batchId : Int) - s.first < 0 := by omega
      have hnat : ((batchId : Int) - s.first).toNat = batchId - s.first := by omega
      simp only [if_neg hneg, hnat]
      cases hget : s.batches[batchId - s.first]? with
      | none => rw [s.find?_eq_none_of_getElem? (by omega) hget]
      | some b =>
          have hid : b.batchId = batchId := by
            have hb := s.batchId_eq hget
            omega
          have hfind := s.find?_eq hget
          rw [hid] at hfind
          simp only [if_pos hid, hfind]

theorem MemoryMutationQueue.Represents.nextAfter (h : q.Represents s)
    (batchId : Option Nat) :
    q.nextMutationBatchAfterBatchId batchId =
      s.batches.find? fun b => batchIdAfter batchId ≤ b.batchId := by
  rw [s.find?_le, nextMutationBatchAfterBatchId, h.queue]
  by_cases hne : s.batches = []
  · rw [hne, List.getElem?_nil, List.getElem?_nil]
  · rw [h.indexOfBatchId hne]
    refine congrArg _ ?_
    split
    · omega
    · omega

theorem mapM_lookup (h : q.Represents s) {bs : List MutationBatch}
    (hbs : ∀ b ∈ bs, b ∈ s.batches) :
    (bs.map (·.batchId)).mapM q.lookupMutationBatch = .ok (bs.map some) := by
  induction bs with
  | nil => rfl
  | cons b bs ih =>
      obtain ⟨hb, hrest⟩ := List.forall_mem_cons.mp hbs
      obtain ⟨i, hi⟩ := List.mem_iff_getElem?.mp hb
      rw [List.map_cons, List.mapM_cons, h.lookup, s.find?_eq hi, ih hrest]
      rfl

theorem MemoryMutationQueue.Represents.withIds (h : q.Represents s)
    (p : MutationBatch → Bool) :
    q.allMutationBatchesWithIds ((s.batches.filter p).map (·.batchId)).toFinset =
      .ok (s.batches.filter p) := by
  rw [allMutationBatchesWithIds, s.sort_batchIds,
    mapM_lookup h fun b hb => List.mem_of_mem_filter hb]
  simp [Except.map]

/-- Every reference of the index is found again. -/
theorem MemoryMutationQueue.Represents.ofKey (h : q.Represents s) (key : DocumentKey) :
    q.allMutationBatchesAffectingDocumentKey key =
      .ok (s.batches.filter fun b => b.affects key) := by
  rw [allMutationBatchesAffectingDocumentKey, h.index.ofKey_eq s.sorted]
  have hfound : ∀ bs : List MutationBatch, (∀ b ∈ bs, b ∈ s.batches) →
      ((bs.map (·.batchId)).mapM fun batchId =>
        (q.lookupMutationBatch batchId).bind fun found => found.elim
          (.error (.hardAssert "Batches in the index must exist in the main table"))
          .ok : Except Crash (List MutationBatch)) = .ok bs := by
    intro bs hbs
    induction bs with
    | nil => rfl
    | cons b bs ih =>
        obtain ⟨hb, hrest⟩ := List.forall_mem_cons.mp hbs
        obtain ⟨i, hi⟩ := List.mem_iff_getElem?.mp hb
        rw [List.map_cons, List.mapM_cons, h.lookup, s.find?_eq hi, ih hrest]
        rfl
  exact hfound _ fun b hb => List.mem_of_mem_filter hb

theorem MemoryMutationQueue.Represents.ofKeys (h : q.Represents s)
    (keys : List DocumentKey) :
    q.allMutationBatchesAffectingDocumentKeys keys =
      .ok (s.batches.filter fun b => keys.any b.affects) := by
  rw [allMutationBatchesAffectingDocumentKeys, h.index.ofKeys_eq s.sorted, h.withIds]

/-- A document key has an even number of segments, so none is the path of a
collection, and the empty segment comes first below it. -/
theorem MemoryMutationQueue.Represents.ofQuery (h : q.Represents s) (query : Query) :
    q.allMutationBatchesAffectingQuery query =
      .ok (s.batches.filter fun b => b.affectsBelow query.path) := by
  by_cases heven : query.path.length % 2 = 0
  · simp only [allMutationBatchesAffectingQuery, if_pos heven]
    rw [h.index.below_eq le_rfl fun r _ hprefix => le_of_isPrefix hprefix, h.withIds]
  · simp only [allMutationBatchesAffectingQuery, if_neg heven]
    have hfirst : ∀ r ∈ q.batchesByDocumentKey.rows, query.path <+: r.key.path →
        query.path ++ [""] ≤ r.key.path := by
      rintro r - ⟨post, hpost⟩
      cases post with
      | nil =>
          rw [List.append_nil] at hpost
          have hkey := r.key.isDocumentKey
          rw [← hpost] at hkey
          exact absurd hkey heven
      | cons segment post =>
          rw [← hpost]
          exact append_empty_le query.path segment post
    rw [h.index.below_eq (le_of_isPrefix (List.prefix_append query.path [""])) hfirst,
      h.withIds]

theorem MemoryMutationQueue.Represents.start (h : q.Represents s) :
    q.start.Represents (if s.batches = [] then PendingBatches.empty else s) := by
  by_cases hempty : s.batches = []
  · have hqueue : q.queue = [] := h.queue.trans hempty
    rw [MemoryMutationQueue.start, if_pos hqueue, if_pos hempty]
    exact
      { queue := hqueue
        next := rfl
        index := fun r => by
          have hr := h.index r
          rw [hempty] at hr
          exact hr }
  · have hqueue : q.queue ≠ [] := fun hq => hempty (h.queue.symm.trans hq)
    rw [MemoryMutationQueue.start, if_neg hqueue, if_neg hempty]
    exact h

theorem MemoryMutationQueue.Represents.add (h : q.Represents s)
    {mutations : List Mutation} (hne : mutations ≠ []) :
    ∃ q', q.addMutationBatch mutations = .ok (⟨s.next, mutations⟩, q') ∧
      q'.Represents (s.push mutations hne) := by
  have hprior : ∀ prior ∈ q.queue.getLast?, prior.batchId < q.nextBatchId := by
    intro prior hprior
    rw [h.queue] at hprior
    rw [h.next]
    exact s.lt_next (List.mem_of_getLast? hprior)
  refine
    ⟨{ nextBatchId := q.nextBatchId + 1
       queue := q.queue ++ [⟨s.next, mutations⟩]
       batchesByDocumentKey := q.batchesByDocumentKey.add ⟨s.next, mutations⟩ }, ?_, ?_⟩
  · rw [addMutationBatch, if_neg hne, if_pos hprior, mutationBatch, if_neg hne, h.next]
    rfl
  · exact
      { queue := congrArg (· ++ [⟨s.next, mutations⟩]) h.queue
        next := (congrArg (· + 1) h.next).trans (s.next_push mutations hne).symm
        index := h.index.add _ }

theorem MemoryMutationQueue.Represents.acknowledge (h : q.Represents s)
    {b : MutationBatch} (hb : s.batches.head? = some b) : q.acknowledgeBatch b = .ok () := by
  rw [acknowledgeBatch, h.queue, hb]
  exact if_pos rfl

theorem MemoryMutationQueue.Represents.remove (h : q.Represents s) {b : MutationBatch}
    (hb : s.batches.head? = some b) :
    ∃ q', q.removeMutationBatch b = .ok q' ∧ q'.Represents s.pop := by
  obtain ⟨rest, hrest⟩ := List.head?_eq_some_iff.mp hb
  refine
    ⟨{ q with
       queue := q.queue.tail
       batchesByDocumentKey := q.batchesByDocumentKey.remove b }, ?_, ?_⟩
  · rw [removeMutationBatch, h.queue, hb]
    exact if_pos rfl
  · refine
      { queue := congrArg List.tail h.queue
        next := h.next.trans s.next_pop.symm
        index := ?_ }
    exact s.indexes_pop hrest h.index

theorem MemoryMutationQueue.Represents.consistent (h : q.Represents s) :
    q.performConsistencyCheck = .ok () := by
  refine if_neg ?_
  rintro ⟨hempty, hindex⟩
  obtain ⟨r, hr⟩ := List.exists_mem_of_ne_nil _ hindex
  obtain ⟨b, hb, -⟩ := (h.index r).mp hr
  rw [← h.queue, hempty] at hb
  cases hb

theorem MemoryMutationQueue.Represents.highest (h : q.Represents s) :
    q.getHighestUnacknowledgedBatchId = s.batches.getLast?.map (·.batchId) := by
  rw [getHighestUnacknowledgedBatchId, h.queue]
  cases hlast : s.batches.getLast? with
  | none => rw [if_pos (List.getLast?_eq_none_iff.mp hlast), Option.map_none]
  | some b =>
      have hne : s.batches ≠ [] := List.ne_nil_of_mem (List.mem_of_getLast? hlast)
      have hnext := s.getLast?_batchId hlast
      rw [if_neg hne, h.next, ← hnext, Nat.add_sub_cancel, Option.map_some]

end Memory

/-! ## Runs of calls -/

/-- The answers to a list of calls, one after the other. -/
def answers {ζ : Type} (call : ζ → QueueCall → Except Crash (QueueAnswer × ζ)) :
    ζ → List QueueCall → Except Crash (List QueueAnswer)
  | _, [] => .ok []
  | q, c :: cs => (call q c).bind fun r => (answers call r.2 cs).map (r.1 :: ·)

/-- The answers of the list. -/
def PendingBatches.answers : PendingBatches → List QueueCall → Option (List QueueAnswer)
  | _, [] => some []
  | s, c :: cs => (s.call c).bind fun r => (PendingBatches.answers r.2 cs).map (r.1 :: ·)

/-- **Run rule.**  An implementation that answers each call as the list does,
and holds the list again, answers every run of calls as the list does. -/
theorem answers_eq_ok {ζ : Type} {call : ζ → QueueCall → Except Crash (QueueAnswer × ζ)}
    {R : ζ → PendingBatches → Prop}
    (hcall : ∀ q s c a s', R q s → s.call c = some (a, s') →
      ∃ q', call q c = .ok (a, q') ∧ R q' s')
    {q : ζ} {s : PendingBatches} (h : R q s) {cs : List QueueCall}
    {as : List QueueAnswer} (has : s.answers cs = some as) :
    answers call q cs = .ok as := by
  induction cs generalizing q s as with
  | nil =>
      cases has
      rfl
  | cons c cs ih =>
      rw [PendingBatches.answers] at has
      obtain ⟨⟨a, s'⟩, hc, hrest⟩ := Option.bind_eq_some_iff.mp has
      obtain ⟨as', has', rfl⟩ := Option.map_eq_some_iff.mp hrest
      obtain ⟨q', hq', hR⟩ := hcall q s c a s' h hc
      rw [answers, hq']
      show (answers call q' cs).map (a :: ·) = .ok (a :: as')
      rw [ih hR has']
      rfl

/-- Every answer of the list is LevelDB's. -/
theorem levelDb_call (q : LevelDbMutationQueue) (s : PendingBatches) (c : QueueCall)
    (a : QueueAnswer) (s' : PendingBatches) (h : q.Represents s)
    (hc : s.call c = some (a, s')) : ∃ q', q.call c = .ok (a, q') ∧ q'.Represents s' := by
  cases c with
  | start =>
      cases hc
      exact ⟨q.start, rfl, h.start⟩
  | addMutationBatch mutations =>
      simp only [PendingBatches.call] at hc
      split at hc
      · cases hc
      · next hne =>
          cases hc
          obtain ⟨q', hq', hrep⟩ := h.add hne
          exact ⟨q', by rw [LevelDbMutationQueue.call, hq']; rfl, hrep⟩
  | acknowledgeBatch batch =>
      simp only [PendingBatches.call] at hc
      split at hc
      · cases hc
        exact ⟨q, rfl, h⟩
      · cases hc
  | removeMutationBatch batch =>
      simp only [PendingBatches.call] at hc
      split at hc
      · next hhead =>
          cases hc
          obtain ⟨q', hq', hrep⟩ := h.remove hhead
          exact ⟨q', by rw [LevelDbMutationQueue.call, hq']; rfl, hrep⟩
      · cases hc
  | performConsistencyCheck =>
      cases hc
      exact ⟨q, by rw [LevelDbMutationQueue.call, h.consistent]; rfl, h⟩
  | allMutationBatches =>
      cases hc
      exact ⟨q, by rw [LevelDbMutationQueue.call, h.rows], h⟩
  | lookupMutationBatch batchId =>
      cases hc
      refine ⟨q, ?_, h⟩
      rw [LevelDbMutationQueue.call, LevelDbMutationQueue.lookupMutationBatch, Table.get,
        h.rows]
  | nextMutationBatchAfterBatchId batchId =>
      cases hc
      refine ⟨q, ?_, h⟩
      rw [LevelDbMutationQueue.call, LevelDbMutationQueue.nextMutationBatchAfterBatchId,
        q.mutations.head?_seek, h.rows]
  | getHighestUnacknowledgedBatchId =>
      cases hc
      refine ⟨q, ?_, h⟩
      rw [LevelDbMutationQueue.call, LevelDbMutationQueue.getHighestUnacknowledgedBatchId,
        h.rows]
  | allMutationBatchesAffectingDocumentKey key =>
      cases hc
      refine ⟨q, ?_, h⟩
      rw [LevelDbMutationQueue.call, h.ofKeys [key]]
      simp [Except.bind]
  | allMutationBatchesAffectingDocumentKeys keys =>
      cases hc
      exact ⟨q, by rw [LevelDbMutationQueue.call, h.ofKeys keys]; rfl, h⟩
  | allMutationBatchesAffectingQuery query =>
      simp only [PendingBatches.call] at hc
      split at hc
      · cases hc
      · next hquery =>
          cases hc
          exact ⟨q, by rw [LevelDbMutationQueue.call, h.ofQuery hquery]; rfl, h⟩

/-- Every answer of the list is the vector's. -/
theorem memory_call (q : MemoryMutationQueue) (s : PendingBatches) (c : QueueCall)
    (a : QueueAnswer) (s' : PendingBatches) (h : q.Represents s)
    (hc : s.call c = some (a, s')) : ∃ q', q.call c = .ok (a, q') ∧ q'.Represents s' := by
  cases c with
  | start =>
      cases hc
      exact ⟨q.start, rfl, h.start⟩
  | addMutationBatch mutations =>
      simp only [PendingBatches.call] at hc
      split at hc
      · cases hc
      · next hne =>
          cases hc
          obtain ⟨q', hq', hrep⟩ := h.add hne
          exact ⟨q', by rw [MemoryMutationQueue.call, hq']; rfl, hrep⟩
  | acknowledgeBatch batch =>
      simp only [PendingBatches.call] at hc
      split at hc
      · next hhead =>
          cases hc
          exact ⟨q, by rw [MemoryMutationQueue.call, h.acknowledge hhead]; rfl, h⟩
      · cases hc
  | removeMutationBatch batch =>
      simp only [PendingBatches.call] at hc
      split at hc
      · next hhead =>
          cases hc
          obtain ⟨q', hq', hrep⟩ := h.remove hhead
          exact ⟨q', by rw [MemoryMutationQueue.call, hq']; rfl, hrep⟩
      · cases hc
  | performConsistencyCheck =>
      cases hc
      exact ⟨q, by rw [MemoryMutationQueue.call, h.consistent]; rfl, h⟩
  | allMutationBatches =>
      cases hc
      exact ⟨q, by rw [MemoryMutationQueue.call, h.queue], h⟩
  | lookupMutationBatch batchId =>
      cases hc
      exact ⟨q, by rw [MemoryMutationQueue.call, h.lookup]; rfl, h⟩
  | nextMutationBatchAfterBatchId batchId =>
      cases hc
      exact ⟨q, by rw [MemoryMutationQueue.call, h.nextAfter], h⟩
  | getHighestUnacknowledgedBatchId =>
      cases hc
      exact ⟨q, by rw [MemoryMutationQueue.call, h.highest], h⟩
  | allMutationBatchesAffectingDocumentKey key =>
      cases hc
      exact ⟨q, by rw [MemoryMutationQueue.call, h.ofKey key]; rfl, h⟩
  | allMutationBatchesAffectingDocumentKeys keys =>
      cases hc
      exact ⟨q, by rw [MemoryMutationQueue.call, h.ofKeys keys]; rfl, h⟩
  | allMutationBatchesAffectingQuery query =>
      simp only [PendingBatches.call] at hc
      split at hc
      · cases hc
      · cases hc
        exact ⟨q, by rw [MemoryMutationQueue.call, h.ofQuery query]; rfl, h⟩

/-- Empty tables, opened. -/
def LevelDbMutationQueue.opened : LevelDbMutationQueue :=
  LevelDbMutationQueue.start
    { nextBatchId := 0, mutations := Table.empty, documentMutations := Table.empty }

/-- An empty vector. -/
def MemoryMutationQueue.opened : MemoryMutationQueue where
  nextBatchId := 1
  queue := []
  batchesByDocumentKey := Table.empty

theorem indexes_empty : Indexes Table.empty [] := by
  intro r
  simp [Table.empty]

theorem LevelDbMutationQueue.opened_represents :
    LevelDbMutationQueue.opened.Represents PendingBatches.empty :=
  { rows := rfl, next := rfl, index := indexes_empty }

/-- **The two queues.**  From opening on, both implementations answer every run
of calls in which batches leave from the front and no query is of one document as
the list of pending batches does; no assertion of theirs fails. -/
theorem queues_agree {cs : List QueueCall} {as : List QueueAnswer}
    (h : PendingBatches.empty.answers cs = some as) :
    answers LevelDbMutationQueue.call .opened cs = .ok as ∧
      answers MemoryMutationQueue.call .opened cs = .ok as := by
  have hmemory : MemoryMutationQueue.opened.Represents PendingBatches.empty :=
    { queue := rfl, next := rfl, index := indexes_empty }
  exact ⟨answers_eq_ok levelDb_call LevelDbMutationQueue.opened_represents h,
    answers_eq_ok memory_call hmemory h⟩

/-- The documents of `clues` whose field `Locked` is false, by number. -/
def unlockedByNumber : Query where
  path := ["clues"]
  filters := [.fieldFilter "Locked" (.bool false)]
  explicitOrderBys := [⟨.field "number", false⟩]
  limit := none

/-- A clue is found: the document is unlocked, the path saved. -/
def findOneClue : List QueueCall :=
  let unlock := toMutation (.updateData (clueKey "Clue1") "Locked" (.bool false))
  let save := toMutation (.setData lastPathKey [("last-path", .string "Clue1")])
  [ .addMutationBatch [unlock], .addMutationBatch [save],
    .allMutationBatchesAffectingQuery unlockedByNumber, .removeMutationBatch ⟨1, [unlock]⟩,
    .nextMutationBatchAfterBatchId none, .performConsistencyCheck, .start,
    .allMutationBatchesAffectingDocumentKey lastPathKey ]

theorem queues_agree_findOneClue :
    ∃ as, answers LevelDbMutationQueue.call .opened findOneClue = .ok as ∧
      answers MemoryMutationQueue.call .opened findOneClue = .ok as ∧ as.length = 8 := by
  obtain ⟨as, has⟩ : ∃ as, PendingBatches.empty.answers findOneClue = some as := ⟨_, rfl⟩
  refine ⟨as, (queues_agree has).1, (queues_agree has).2, ?_⟩
  cases has
  rfl

end ValentinesDay.Ports.MutationQueue
