import ValentinesDay.Ports.MutationQueue

/-!
# Pending batches: what a mutation queue is for

`PendingBatches` is the list of batches in the order they were written, numbered
without gaps.  It answers every call that the client makes: batches leave from the
front, which is the case for all calls of the client, whose write pipeline begins
with the front of the queue.

`Indexes` says what the index of either implementation holds for such a list.
-/

namespace ValentinesDay.Ports.MutationQueue

open ValentinesDay.Verified.OrderedTable
open ValentinesDay.Ports.Firestore
open ValentinesDay.Ports.Mutations
open ValentinesDay.Ports.Queries

/-! ## What both are for -/

/-- Batches in the order they were written, numbered without gaps. -/
structure PendingBatches where
  first : Nat
  batches : List MutationBatch
  positive : 0 < first
  consecutive : batches.map (·.batchId) = List.range' first batches.length
  nonempty : ∀ b ∈ batches, b.mutations ≠ []

/-- Some mutation of the batch is of a document directly in the collection. -/
def MutationBatch.affectsBelow (batch : MutationBatch) (path : ResourcePath) : Bool :=
  batch.mutations.any fun m =>
    path.isPrefixOf m.key.path && decide (m.key.path.length = path.length + 1)

namespace PendingBatches

/-- The number of the batch written next. -/
def next (s : PendingBatches) : Nat := s.first + s.batches.length

/-- Nothing is pending. -/
def empty : PendingBatches where
  first := 1
  batches := []
  positive := Nat.one_pos
  consecutive := rfl
  nonempty := by simp

/-- A batch is written. -/
def push (s : PendingBatches) (mutations : List Mutation) (h : mutations ≠ []) :
    PendingBatches where
  first := s.first
  batches := s.batches ++ [⟨s.next, mutations⟩]
  positive := s.positive
  consecutive := by
    simp [s.consecutive, List.range'_concat, next]
  nonempty := by
    intro b hb
    rcases List.mem_append.mp hb with hold | hnew
    · exact s.nonempty b hold
    · rw [List.mem_singleton.mp hnew]
      exact h

/-- The front batch leaves. -/
def pop (s : PendingBatches) : PendingBatches where
  first := s.first + min 1 s.batches.length
  batches := s.batches.tail
  positive := Nat.add_pos_left s.positive _
  consecutive := by
    have hids := s.consecutive
    cases hs : s.batches with
    | nil => rfl
    | cons b rest =>
        rw [hs, List.map_cons, List.length_cons, List.range'_succ] at hids
        simpa using (List.cons.inj hids).2
  nonempty b hb := s.nonempty b (List.mem_of_mem_tail hb)

/-- A call answered by the list; `none` for what the client never does: an
empty batch, a batch leaving from elsewhere than the front, or a query of one
document, which is answered by a lookup of that document. -/
def call (s : PendingBatches) : QueueCall → Option (QueueAnswer × PendingBatches)
  | .start => some (.done, if s.batches = [] then empty else s)
  | .addMutationBatch mutations =>
      if h : mutations = [] then none
      else some (.batch (some ⟨s.next, mutations⟩), s.push mutations h)
  | .acknowledgeBatch batch =>
      if s.batches.head? = some batch then some (.done, s) else none
  | .removeMutationBatch batch =>
      if s.batches.head? = some batch then some (.done, s.pop) else none
  | .performConsistencyCheck => some (.done, s)
  | .allMutationBatches => some (.batches s.batches, s)
  | .lookupMutationBatch batchId =>
      some (.batch (s.batches.find? fun b => b.batchId = batchId), s)
  | .nextMutationBatchAfterBatchId batchId =>
      some (.batch (s.batches.find? fun b => batchIdAfter batchId ≤ b.batchId), s)
  | .getHighestUnacknowledgedBatchId =>
      some (.batchId (s.batches.getLast?.map (·.batchId)), s)
  | .allMutationBatchesAffectingDocumentKey key =>
      some (.batches (s.batches.filter fun b => b.affects key), s)
  | .allMutationBatchesAffectingDocumentKeys keys =>
      some (.batches (s.batches.filter fun b => keys.any b.affects), s)
  | .allMutationBatchesAffectingQuery query =>
      if query.isDocumentQuery then none
      else some (.batches (s.batches.filter fun b => b.affectsBelow query.path), s)

/-! ### Numbers and positions -/

private theorem find?_le_of_consecutive {first : Nat} {bs : List MutationBatch}
    (hids : bs.map (·.batchId) = List.range' first bs.length) (n : Nat) :
    (bs.find? fun b => n ≤ b.batchId) = bs[n - first]? := by
  induction bs generalizing first with
  | nil => simp
  | cons b rest ih =>
      rw [List.map_cons, List.length_cons, List.range'_succ] at hids
      obtain ⟨hb, hrest⟩ := List.cons.inj hids
      by_cases hle : n ≤ b.batchId
      · have hzero : n - first = 0 := by omega
        rw [List.find?_cons_of_pos (by simpa using hle), hzero, List.getElem?_cons_zero]
      · have hsucc : n - first = n - (first + 1) + 1 := by omega
        rw [List.find?_cons_of_neg (by simpa using hle), ih hrest, hsucc,
          List.getElem?_cons_succ]

private theorem batchId_of_consecutive {first : Nat} {bs : List MutationBatch}
    (hids : bs.map (·.batchId) = List.range' first bs.length) {i : Nat}
    {b : MutationBatch} (hb : bs[i]? = some b) : b.batchId = first + i := by
  have hi : i < bs.length := (List.getElem?_eq_some_iff.mp hb).1
  have hmap : (bs.map (·.batchId))[i]? = some b.batchId := by simp [hb]
  rw [hids, List.getElem?_range' hi] at hmap
  simpa using hmap.symm

variable (s : PendingBatches)

theorem find?_le (n : Nat) :
    (s.batches.find? fun b => n ≤ b.batchId) = s.batches[n - s.first]? :=
  find?_le_of_consecutive s.consecutive n

theorem batchId_eq {i : Nat} {b : MutationBatch} (hb : s.batches[i]? = some b) :
    b.batchId = s.first + i :=
  batchId_of_consecutive s.consecutive hb

theorem lt_next {b : MutationBatch} (hb : b ∈ s.batches) : b.batchId < s.next := by
  obtain ⟨i, hi⟩ := List.mem_iff_getElem?.mp hb
  have hlt : i < s.batches.length := (List.getElem?_eq_some_iff.mp hi).1
  have hid := s.batchId_eq hi
  unfold next
  omega

/-- The last number used. -/
theorem getLast?_batchId {b : MutationBatch} (hb : s.batches.getLast? = some b) :
    b.batchId + 1 = s.next := by
  rw [List.getLast?_eq_getElem?] at hb
  have hlt : s.batches.length - 1 < s.batches.length := (List.getElem?_eq_some_iff.mp hb).1
  have hid := s.batchId_eq hb
  unfold next
  omega

/-- A number of the queue is that of one batch. -/
theorem find?_eq {i : Nat} {b : MutationBatch} (hb : s.batches[i]? = some b) :
    (s.batches.find? fun c => c.batchId = b.batchId) = some b := by
  cases hfind : s.batches.find? fun c => c.batchId = b.batchId with
  | none =>
      have hnone := List.find?_eq_none.mp hfind b (List.mem_of_getElem? hb)
      simp at hnone
  | some c =>
      have hc := List.find?_some hfind
      obtain ⟨j, hj⟩ := List.mem_iff_getElem?.mp (List.mem_of_find?_eq_some hfind)
      have hij : j = i := by
        have hidj := s.batchId_eq hj
        have hidi := s.batchId_eq hb
        have heq : c.batchId = b.batchId := of_decide_eq_true hc
        omega
      rw [hij, hb] at hj
      exact hj.symm

theorem find?_eq_none_of_getElem? {batchId : Nat} (hle : s.first ≤ batchId)
    (hnone : s.batches[batchId - s.first]? = none) :
    (s.batches.find? fun c => c.batchId = batchId) = none := by
  refine List.find?_eq_none.mpr ?_
  intro c hc heq
  obtain ⟨j, hj⟩ := List.mem_iff_getElem?.mp hc
  have hid := s.batchId_eq hj
  have hcid : c.batchId = batchId := of_decide_eq_true heq
  have hindex : batchId - s.first = j := by omega
  rw [hindex, hj] at hnone
  cases hnone

end PendingBatches

/-! ## The index -/

/-- The index holds the references of the batches and no others. -/
def Indexes (index : DocumentIndex) (batches : List MutationBatch) : Prop :=
  ∀ r, r ∈ index.rows ↔ ∃ b ∈ batches, b.batchId = r.refId ∧ b.affects r.key

section Index

variable {index : DocumentIndex} {batches : List MutationBatch}

theorem affects_iff {b : MutationBatch} {key : DocumentKey} :
    b.affects key ↔ ∃ m ∈ b.mutations, m.key = key := by
  simp [MutationBatch.affects]

theorem mem_add (index : DocumentIndex) (b : MutationBatch) (r : DocumentKeyReference) :
    r ∈ (index.add b).rows ↔ r ∈ index.rows ∨ b.batchId = r.refId ∧ b.affects r.key := by
  have hfold : ∀ (ms : List Mutation) (index : DocumentIndex),
      r ∈ (ms.foldl (fun (index : DocumentIndex) m => index.put ⟨m.key, b.batchId⟩)
        index).rows ↔ r ∈ index.rows ∨ b.batchId = r.refId ∧ ∃ m ∈ ms, m.key = r.key := by
    intro ms
    induction ms with
    | nil => simp
    | cons m ms ih =>
        intro index
        rw [List.foldl_cons, ih, Table.mem_put, List.exists_mem_cons_iff]
        have hsame : r = ⟨m.key, b.batchId⟩ ↔ b.batchId = r.refId ∧ m.key = r.key := by
          cases r
          simp only [DocumentKeyReference.mk.injEq]
          exact ⟨fun h => ⟨h.2.symm, h.1.symm⟩, fun h => ⟨h.2.symm, h.1.symm⟩⟩
        have hkey : r.byKey ≠ DocumentKeyReference.byKey ⟨m.key, b.batchId⟩ ↔
            r ≠ ⟨m.key, b.batchId⟩ :=
          not_congr ⟨byKey_injective, congrArg _⟩
        rw [hkey]
        tauto
  rw [DocumentIndex.add, hfold, affects_iff]

theorem mem_remove (index : DocumentIndex) (b : MutationBatch) (r : DocumentKeyReference) :
    r ∈ (index.remove b).rows ↔
      r ∈ index.rows ∧ ¬(b.batchId = r.refId ∧ b.affects r.key) := by
  have hfold : ∀ (ms : List Mutation) (index : DocumentIndex),
      r ∈ (ms.foldl (fun (index : DocumentIndex) m =>
        index.delete (DocumentKeyReference.byKey ⟨m.key, b.batchId⟩)) index).rows ↔
        r ∈ index.rows ∧ ¬(b.batchId = r.refId ∧ ∃ m ∈ ms, m.key = r.key) := by
    intro ms
    induction ms with
    | nil => simp
    | cons m ms ih =>
        intro index
        rw [List.foldl_cons, ih, Table.mem_delete, List.exists_mem_cons_iff]
        have hkey : r.byKey ≠ DocumentKeyReference.byKey ⟨m.key, b.batchId⟩ ↔
            ¬(b.batchId = r.refId ∧ m.key = r.key) := by
          refine not_congr ⟨fun h => ?_, fun h => ?_⟩
          · cases byKey_injective h
            exact ⟨rfl, rfl⟩
          · rw [h.1, h.2]
        rw [hkey, and_or_left, not_or, and_assoc]
  rw [DocumentIndex.remove, hfold, affects_iff]

theorem Indexes.add (h : Indexes index batches) (b : MutationBatch) :
    Indexes (index.add b) (batches ++ [b]) := by
  intro r
  rw [mem_add, h r]
  constructor
  · rintro (⟨c, hc, href⟩ | href)
    · exact ⟨c, List.mem_append_left _ hc, href⟩
    · exact ⟨b, List.mem_append_right _ (List.mem_singleton_self b), href⟩
  · rintro ⟨c, hc, href⟩
    rcases List.mem_append.mp hc with hold | hnew
    · exact .inl ⟨c, hold, href⟩
    · cases List.mem_singleton.mp hnew
      exact .inr href

/-- No other batch has the number of the one that leaves. -/
theorem Indexes.remove {b : MutationBatch} {rest : List MutationBatch}
    (h : Indexes index (b :: rest)) (hne : ∀ c ∈ rest, c.batchId ≠ b.batchId) :
    Indexes (index.remove b) rest := by
  intro r
  rw [mem_remove, h r]
  constructor
  · rintro ⟨⟨c, hc, href⟩, hnot⟩
    rcases List.mem_cons.mp hc with rfl | hrest
    · exact absurd href hnot
    · exact ⟨c, hrest, href⟩
  · rintro ⟨c, hc, href⟩
    refine ⟨⟨c, List.mem_cons_of_mem b hc, href⟩, ?_⟩
    rintro ⟨hid, -⟩
    exact hne c hc (href.1.trans hid.symm)

/-- The scan for one document. -/
theorem scan_ofKey (index : DocumentIndex) (key : DocumentKey) :
    (index.scan (toLex (key.path, 0)) fun r => r.key = key) =
      index.rows.filter fun r => r.key = key := by
  refine index.scan_eq_filter ?_ ?_
  · intro r _ hr
    have hkey : r.key = key := of_decide_eq_true hr
    rw [DocumentKeyReference.byKey, hkey]
    exact Prod.Lex.toLex_le_toLex.mpr (.inr ⟨rfl, Nat.zero_le _⟩)
  · intro r _ r' _ hstart hlt hr'
    have hkey : r'.key = key := of_decide_eq_true hr'
    rw [DocumentKeyReference.byKey, DocumentKeyReference.byKey, hkey] at hlt
    have hle : key.path ≤ r.key.path := by
      rcases Prod.Lex.toLex_le_toLex.mp hstart with h | ⟨h, -⟩
      · exact h.le
      · exact h.le
    have hge : r.key.path ≤ key.path := by
      rcases Prod.Lex.toLex_lt_toLex.mp hlt with h | ⟨h, -⟩
      · exact h.le
      · exact h.le
    have hpath : r.key.path = key.path := le_antisymm hge hle
    have hsame : r.key = key := by
      cases hk : r.key
      cases key
      simp_all
    exact decide_eq_true hsame

/-- The numbers of the batches that affect a document, in order. -/
theorem Indexes.ofKey_eq (h : Indexes index batches)
    (hsorted : batches.Pairwise fun b c => b.batchId < c.batchId) (key : DocumentKey) :
    index.ofKey key = (batches.filter fun b => b.affects key).map (·.batchId) := by
  have hleft : (index.ofKey key).SortedLT := by
    refine List.Pairwise.sortedLT ?_
    rw [DocumentIndex.ofKey, scan_ofKey, List.pairwise_map]
    refine ((index.sorted.filter _).imp_of_mem ?_)
    intro r r' hr hr' hlt
    have hkey : r.key = key := of_decide_eq_true (List.mem_filter.mp hr).2
    have hkey' : r'.key = key := of_decide_eq_true (List.mem_filter.mp hr').2
    rw [DocumentKeyReference.byKey, DocumentKeyReference.byKey, hkey, hkey'] at hlt
    rcases Prod.Lex.toLex_lt_toLex.mp hlt with hpath | ⟨-, hid⟩
    · exact absurd hpath (lt_irrefl _)
    · exact hid
  have hright : ((batches.filter fun b => b.affects key).map (·.batchId)).SortedLT :=
    List.Pairwise.sortedLT (List.pairwise_map.mpr (hsorted.filter _))
  refine hleft.eq_of_mem_iff hright ?_
  intro id
  rw [DocumentIndex.ofKey, scan_ofKey]
  simp only [List.mem_map, List.mem_filter, decide_eq_true_eq]
  constructor
  · rintro ⟨r, ⟨hr, rfl⟩, rfl⟩
    obtain ⟨b, hb, hid, haffects⟩ := (h r).mp hr
    exact ⟨b, ⟨hb, haffects⟩, hid⟩
  · rintro ⟨b, ⟨hb, haffects⟩, rfl⟩
    exact ⟨⟨key, b.batchId⟩, ⟨(h _).mpr ⟨b, hb, rfl, haffects⟩, rfl⟩, rfl⟩

theorem append_empty_le (path : ResourcePath) (segment : String) (post : List String) :
    path ++ [""] ≤ path ++ segment :: post := by
  have hempty : "" ≤ segment :=
    String.le_iff_toList_le.mpr (not_lt.mp (List.not_lt_nil segment.toList))
  refine append_le_append path (path_cons_le_cons_iff.mpr ?_)
  rcases hempty.lt_or_eq with hlt | heq
  · exact .inl hlt
  · exact .inr ⟨heq, not_lt.mp (List.not_lt_nil post)⟩

/-- The scan for a collection, from any start between the path and what is
below it. -/
theorem mem_below {start path : ResourcePath} (hle : path ≤ start)
    (hstart : ∀ r ∈ index.rows, path <+: r.key.path → start ≤ r.key.path) (id : Nat) :
    id ∈ index.below start path ↔ ∃ r ∈ index.rows, r.refId = id ∧
      path <+: r.key.path ∧ r.key.path.length = path.length + 1 := by
  have hscan : (index.scan (toLex (start, 0)) fun r => path.isPrefixOf r.key.path) =
      index.rows.filter fun r => path.isPrefixOf r.key.path := by
    refine index.scan_eq_filter ?_ ?_
    · intro r hr hprefix
      have hpath := hstart r hr (List.isPrefixOf_iff_prefix.mp hprefix)
      rcases hpath.lt_or_eq with hlt | heq
      · exact Prod.Lex.toLex_le_toLex.mpr (.inl hlt)
      · exact Prod.Lex.toLex_le_toLex.mpr (.inr ⟨heq, Nat.zero_le _⟩)
    · intro r _ r' _ hfrom hlt hprefix
      refine List.isPrefixOf_iff_prefix.mpr ?_
      refine isPrefix_of_between (b := r'.key.path) ?_ ?_
        (List.isPrefixOf_iff_prefix.mp hprefix)
      · rcases Prod.Lex.toLex_le_toLex.mp hfrom with h | ⟨h, -⟩
        · exact hle.trans h.le
        · exact hle.trans h.le
      · rcases Prod.Lex.toLex_lt_toLex.mp hlt with h | ⟨h, -⟩
        · exact h.le
        · exact h.le
  rw [DocumentIndex.below, hscan]
  simp only [List.mem_map, List.mem_filter, decide_eq_true_eq, List.isPrefixOf_iff_prefix]
  constructor
  · rintro ⟨r, ⟨⟨hr, hprefix⟩, hlength⟩, hid⟩
    exact ⟨r, hr, hid, hprefix, hlength⟩
  · rintro ⟨r, hr, hid, hprefix, hlength⟩
    exact ⟨r, ⟨⟨hr, hprefix⟩, hlength⟩, hid⟩

theorem affectsBelow_iff {b : MutationBatch} {path : ResourcePath} :
    b.affectsBelow path ↔ ∃ key, b.affects key ∧ path <+: key.path ∧
      key.path.length = path.length + 1 := by
  simp only [MutationBatch.affectsBelow, List.any_eq_true, Bool.and_eq_true,
    List.isPrefixOf_iff_prefix, decide_eq_true_eq, affects_iff]
  constructor
  · rintro ⟨m, hm, hbelow⟩
    exact ⟨m.key, ⟨m, hm, rfl⟩, hbelow⟩
  · rintro ⟨key, ⟨m, hm, rfl⟩, hbelow⟩
    exact ⟨m, hm, hbelow⟩

/-- The numbers found for a collection. -/
theorem Indexes.below_eq (h : Indexes index batches) {start path : ResourcePath}
    (hle : path ≤ start)
    (hstart : ∀ r ∈ index.rows, path <+: r.key.path → start ≤ r.key.path) :
    (index.below start path).toFinset =
      ((batches.filter fun b => b.affectsBelow path).map (·.batchId)).toFinset := by
  ext id
  rw [List.mem_toFinset, List.mem_toFinset, mem_below hle hstart]
  simp only [List.mem_map, List.mem_filter, affectsBelow_iff]
  constructor
  · rintro ⟨r, hr, rfl, hbelow⟩
    obtain ⟨b, hb, hid, haffects⟩ := (h r).mp hr
    exact ⟨b, ⟨hb, r.key, haffects, hbelow⟩, hid⟩
  · rintro ⟨b, ⟨hb, key, haffects, hbelow⟩, rfl⟩
    exact ⟨⟨key, b.batchId⟩, (h _).mpr ⟨b, hb, rfl, haffects⟩, rfl, hbelow⟩

/-- The numbers found for several documents. -/
theorem Indexes.ofKeys_eq (h : Indexes index batches)
    (hsorted : batches.Pairwise fun b c => b.batchId < c.batchId)
    (keys : List DocumentKey) :
    (keys.flatMap index.ofKey).toFinset =
      ((batches.filter fun b => keys.any b.affects).map (·.batchId)).toFinset := by
  ext id
  simp only [List.mem_toFinset, List.mem_flatMap, h.ofKey_eq hsorted, List.mem_map,
    List.mem_filter, List.any_eq_true]
  constructor
  · rintro ⟨key, hkey, b, ⟨hb, haffects⟩, hid⟩
    exact ⟨b, ⟨hb, key, hkey, haffects⟩, hid⟩
  · rintro ⟨b, ⟨hb, key, hkey, haffects⟩, hid⟩
    exact ⟨key, hkey, b, ⟨hb, haffects⟩, hid⟩

end Index

end ValentinesDay.Ports.MutationQueue
