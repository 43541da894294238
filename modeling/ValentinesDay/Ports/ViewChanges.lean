import ValentinesDay.Ports.QueryLimits

/-!
# Changes of views

A query that is listened to has a `View`: the documents that match, in order and
cut to the limit of the query.  When documents of the local store change, the
view works out from these alone which documents it shows now and what changed;
only if a document leaves a full view it asks for all that match.

The changes of a view lead from the documents it had to those it has (`Diff`), and
no two changes of one document are a combination that `AddChange` does not support.

## Main results

* `addChange_ok` — a change after a change.
* `applyDocChange_ok`, `foldlM_applyDocChange_ok` — what one entry does, and all.
* `dropToLimit_ok` — what is left of the documents is the window of the limit.
-/

namespace ValentinesDay.Ports.QueryView

open ValentinesDay.Ports.Runtime
open ValentinesDay.Ports.Firestore
open ValentinesDay.Ports.Mutations
open ValentinesDay.Ports.Queries
open ValentinesDay.Ports.LocalDocuments
open ValentinesDay.Ports.DocumentSets
open ValentinesDay.Ports.QueryLimits
open ValentinesDay.Verified.OrderedTable
open ValentinesDay.Verified.FirstMembers

universe u

/-! ## Change sets -/

/-- `DocumentViewChange::Type`. -/
inductive ChangeType where
  | removed
  | added
  | modified
  | metadata
  deriving DecidableEq, Repr

/-- `DocumentViewChange`. -/
structure DocumentViewChange where
  document : Document
  type : ChangeType
  deriving DecidableEq

/-- `DocumentViewChangeSet`: the changes by key. -/
abbrev DocumentViewChangeSet := Table fun c : DocumentViewChange => c.document.key.path

/-- The change of a document. -/
def changeAt (changes : DocumentViewChangeSet) (key : DocumentKey) :
    Option DocumentViewChange :=
  changes.get key.path

/-- What `AddChange` makes of a change after another one of the same document;
without result the document has not changed. -/
def mergeChange (old change : DocumentViewChange) :
    Except Crash (Option DocumentViewChange) :=
  if change.type ≠ .added ∧ old.type = .metadata then .ok (some change)
  else if change.type = .metadata ∧ old.type ≠ .removed then
    .ok (some ⟨change.document, old.type⟩)
  else if change.type = .modified ∧ old.type = .modified then
    .ok (some ⟨change.document, .modified⟩)
  else if change.type = .modified ∧ old.type = .added then
    .ok (some ⟨change.document, .added⟩)
  else if change.type = .removed ∧ old.type = .added then .ok none
  else if change.type = .removed ∧ old.type = .modified then
    .ok (some ⟨old.document, .removed⟩)
  else if change.type = .added ∧ old.type = .removed then
    .ok (some ⟨change.document, .modified⟩)
  else .error (.hardAssert "Unsupported combination of changes: %s after %s")

/-- `AddChange`. -/
def addChange (changes : DocumentViewChangeSet) (change : DocumentViewChange) :
    Except Crash DocumentViewChangeSet :=
  match changeAt changes change.document.key with
  | none => .ok (changes.put change)
  | some old =>
      (mergeChange old change).bind fun merged => .ok
        (match merged with
        | some c => changes.put c
        | none => changes.delete change.document.key.path)

/-- A change that leads from one state of the document to another one. -/
inductive Diff (key : DocumentKey) :
    Option Document → Option Document → Option DocumentViewChange → Prop where
  | same (d : Option Document) : Diff key d d none
  | added {e : Document} (hkey : e.key = key) : Diff key none (some e) (some ⟨e, .added⟩)
  | removed (d : Document) {e : Document} (hkey : e.key = key) :
      Diff key (some d) none (some ⟨e, .removed⟩)
  | modified (d : Document) {e : Document} (hkey : e.key = key) :
      Diff key (some d) (some e) (some ⟨e, .modified⟩)
  | metadata {d e : Document} (hkey : e.key = key) (hdata : e.data = d.data) :
      Diff key (some d) (some e) (some ⟨e, .metadata⟩)

section Changes

variable {key : DocumentKey} {a b c : Option Document}

theorem Diff.key_eq {change : DocumentViewChange} (h : Diff key a b (some change)) :
    change.document.key = key := by
  cases h with
  | added hkey => exact hkey
  | removed d hkey => exact hkey
  | modified d hkey => exact hkey
  | metadata hkey hdata => exact hkey

theorem Diff.eq_of_none (h : Diff key a b none) : b = a := by
  cases h
  rfl

/-- A change after a change is a combination that is supported, and leads from
the first state to the last. -/
theorem Diff.merge {old change : DocumentViewChange} (hold : Diff key a b (some old))
    (hchange : Diff key b c (some change)) :
    ∃ merged, mergeChange old change = .ok merged ∧ Diff key a c merged := by
  cases hold with
  | added hkey =>
      cases hchange with
      | removed d hkey' => exact ⟨none, rfl, .same none⟩
      | modified d hkey' => exact ⟨_, rfl, .added hkey'⟩
      | metadata hkey' hdata => exact ⟨_, rfl, .added hkey'⟩
  | removed d hkey =>
      cases hchange with
      | added hkey' => exact ⟨_, rfl, .modified d hkey'⟩
  | modified d hkey =>
      cases hchange with
      | removed e hkey' => exact ⟨_, rfl, .removed d hkey⟩
      | modified e hkey' => exact ⟨_, rfl, .modified d hkey'⟩
      | metadata hkey' hdata => exact ⟨_, rfl, .modified d hkey'⟩
  | metadata hkey hdata =>
      cases hchange with
      | removed e hkey' => exact ⟨_, rfl, .removed _ hkey'⟩
      | modified e hkey' => exact ⟨_, rfl, .modified _ hkey'⟩
      | metadata hkey' hdata' => exact ⟨_, rfl, .metadata hkey' (hdata'.trans hdata)⟩

theorem changeAt_put (changes : DocumentViewChangeSet) (change : DocumentViewChange)
    (key : DocumentKey) : changeAt (changes.put change) key =
      if key = change.document.key then some change else changeAt changes key := by
  rw [changeAt, Table.get_put]
  by_cases hkey : key = change.document.key
  · rw [if_pos (congrArg DocumentKey.path hkey), if_pos hkey]
  · rw [if_neg fun h => hkey (documentKey_ext h), if_neg hkey]
    rfl

theorem changeAt_delete (changes : DocumentViewChangeSet) (key key' : DocumentKey) :
    changeAt (changes.delete key.path) key' =
      if key' = key then none else changeAt changes key' := by
  rw [changeAt, Table.get_delete]
  by_cases hkey : key' = key
  · rw [if_pos (congrArg DocumentKey.path hkey), if_pos hkey]
  · rw [if_neg fun h => hkey (documentKey_ext h), if_neg hkey]
    rfl

/-- **Changes in a row.** -/
theorem addChange_ok {changes : DocumentViewChangeSet} {change : DocumentViewChange}
    (hold : Diff key a b (changeAt changes key)) (hchange : Diff key b c (some change)) :
    ∃ changes', addChange changes change = .ok changes' ∧
      Diff key a c (changeAt changes' key) ∧
      ∀ key', key' ≠ key → changeAt changes' key' = changeAt changes key' := by
  have hkey := hchange.key_eq
  unfold addChange
  rw [hkey]
  cases hat : changeAt changes key with
  | none =>
      rw [hat] at hold
      cases hold
      refine ⟨_, rfl, ?_, ?_⟩
      · rw [changeAt_put, if_pos hkey.symm]
        exact hchange
      · intro key' hne
        rw [changeAt_put, hkey, if_neg hne]
  | some old =>
      rw [hat] at hold
      obtain ⟨merged, hmerged, hdiff⟩ := hold.merge hchange
      simp only [hmerged]
      refine ⟨_, rfl, ?_⟩
      cases merged with
      | none =>
          refine ⟨?_, ?_⟩
          · simpa only [changeAt_delete, if_true] using hdiff
          · intro key' hne
            exact (changeAt_delete changes key key').trans (if_neg hne)
      | some m =>
          have hm := hdiff.key_eq
          refine ⟨?_, ?_⟩
          · simpa only [changeAt_put, if_pos hm.symm] using hdiff
          · intro key' hne
            rw [changeAt_put, hm, if_neg hne]

end Changes

variable {κ : Type u} [LinearOrder κ] {comparator : DocumentComparator κ}

/-! ## The edge of a full view -/

/-- `last_doc_in_limit`: the last document of a full view. -/
def lastDocInLimit (limit : Option Limit) (docs : DocumentSet comparator) :
    Option Document :=
  match limit with
  | some ⟨.first, count⟩ => if docs.size = count then docs.getLastDocument else none
  | _ => none

/-- `first_doc_in_limit`, for a limit to last. -/
def firstDocInLimit (limit : Option Limit) (docs : DocumentSet comparator) :
    Option Document :=
  match limit with
  | some ⟨.last, count⟩ => if docs.size = count then docs.getFirstDocument else none
  | _ => none

/-- `outside_limit || outside_limit_to_last`. -/
def outsideLimit (limit : Option Limit) (docs : DocumentSet comparator) (newDoc : Document) :
    Bool :=
  ((lastDocInLimit limit docs).any fun d => comparator.place d < comparator.place newDoc) ||
    (firstDocInLimit limit docs).any fun d => comparator.place newDoc < comparator.place d

/-- In a full view both tests are about the edge. -/
theorem outsideLimit_iff {limit : Limit} {docs : DocumentSet comparator} {m d : Document}
    (hfull : docs.size = limit.count) (hm : limitEdge limit.type docs = some m) :
    outsideLimit (some limit) docs d ↔
      limitPlace limit.type comparator m < limitPlace limit.type comparator d := by
  obtain ⟨type, count⟩ := limit
  cases type with
  | first =>
      have hlast : docs.getLastDocument = some m := hm
      simp only [outsideLimit, lastDocInLimit, firstDocInLimit, if_pos hfull, hlast,
        Option.any_some, Option.any_none, Bool.or_false, decide_eq_true_eq]
      exact directed_false_lt.symm
  | last =>
      have hfirst : docs.getFirstDocument = some m := hm
      simp only [outsideLimit, lastDocInLimit, firstDocInLimit, if_pos hfull, hfirst,
        Option.any_some, Option.any_none, Bool.false_or, decide_eq_true_eq]
      exact directed_true_lt.symm

theorem isSome_inLimit {limit : Limit} {docs : DocumentSet comparator} {m : Document}
    (hfull : docs.size = limit.count) (hm : limitEdge limit.type docs = some m) :
    ((lastDocInLimit (some limit) docs).isSome ||
      (firstDocInLimit (some limit) docs).isSome) = true := by
  obtain ⟨type, count⟩ := limit
  cases type with
  | first =>
      have hlast : docs.getLastDocument = some m := hm
      simp [lastDocInLimit, if_pos hfull, hlast]
  | last =>
      have hfirst : docs.getFirstDocument = some m := hm
      simp [firstDocInLimit, if_pos hfull, hfirst]

/-! ## The view -/

/-- The states `None`, `Local` and `Synced`. -/
inductive SyncState where
  | unknown
  | localOnly
  | synced
  deriving DecidableEq, Repr

/-- `View`. -/
structure View (comparator : DocumentComparator κ) where
  documentSet : DocumentSet comparator
  syncState : SyncState
  current : Bool
  syncedDocuments : Finset DocumentKey
  limboDocuments : Finset DocumentKey
  mutatedKeys : Finset DocumentKey

/-- A new view, with the keys that the target cache has for the query. -/
def View.opened (remoteDocuments : Finset DocumentKey) : View comparator where
  documentSet := .empty
  syncState := .unknown
  current := false
  syncedDocuments := remoteDocuments
  limboDocuments := ∅
  mutatedKeys := ∅

/-- `ViewDocumentChanges`. -/
structure ViewDocumentChanges (comparator : DocumentComparator κ) where
  documentSet : DocumentSet comparator
  changeSet : DocumentViewChangeSet
  mutatedKeys : Finset DocumentKey
  needsRefill : Bool

/-- `ShouldWaitForSyncedDocument`: local mutations are committed, and the backend
will send the document. -/
def shouldWaitForSyncedDocument (newDoc oldDoc : Document) : Bool :=
  oldDoc.hasLocalMutations && newDoc.hasCommittedMutations && !newDoc.hasLocalMutations

namespace View

variable (view : View comparator)

/-- The change for one document, if there is one, and whether another document
may come in for it. -/
def changeOf (limit : Option Limit) (oldDocumentSet : DocumentSet comparator) (key : DocumentKey)
    (newDoc : Option Document) : Option (DocumentViewChange × Bool) :=
  let oldDoc := oldDocumentSet.getDocument key
  let oldDocHadPendingMutations := oldDoc.isSome && decide (key ∈ view.mutatedKeys)
  let newDocHasPendingMutations := newDoc.any fun d =>
    d.hasLocalMutations || decide (key ∈ view.mutatedKeys) && d.hasCommittedMutations
  match oldDoc, newDoc with
  | some oldDoc, some newDoc =>
      if oldDoc.data ≠ newDoc.data then
        if shouldWaitForSyncedDocument newDoc oldDoc then none
        else some (⟨newDoc, .modified⟩, outsideLimit limit oldDocumentSet newDoc)
      else if oldDocHadPendingMutations ≠ newDocHasPendingMutations then
        some (⟨newDoc, .metadata⟩, false)
      else none
  | none, some newDoc => some (⟨newDoc, .added⟩, false)
  | some oldDoc, none =>
      some (⟨oldDoc, .removed⟩, (lastDocInLimit limit oldDocumentSet).isSome ||
        (firstDocInLimit limit oldDocumentSet).isSome)
  | none, none => none

/-- One entry of `ComputeDocumentChanges`. -/
def applyDocChange (query : Query) (oldDocumentSet : DocumentSet comparator)
    (acc : ViewDocumentChanges comparator) (e : KeyedDocument) :
    Except Crash (ViewDocumentChanges comparator) :=
  let newDoc := matching query e
  match view.changeOf query.limit oldDocumentSet e.key newDoc with
  | none => .ok acc
  | some (change, refill) =>
      (addChange acc.changeSet change).bind fun changeSet => .ok
        { documentSet :=
            match newDoc with
            | some d => acc.documentSet.insert d
            | none => acc.documentSet.erase e.key
          changeSet := changeSet
          mutatedKeys :=
            if newDoc.any (·.hasLocalMutations) then insert e.key acc.mutatedKeys
            else acc.mutatedKeys.erase e.key
          needsRefill := acc.needsRefill || refill }

end View

/-- The documents beyond the limit leave at its end. -/
def dropOut (type : LimitType) :
    Nat → ViewDocumentChanges comparator → Except Crash (ViewDocumentChanges comparator)
  | 0, acc => .ok acc
  | i + 1, acc =>
      match limitEdge type acc.documentSet with
      | none => .error (.unexpectedNil "*found")
      | some oldDoc =>
          (addChange acc.changeSet ⟨oldDoc, .removed⟩).bind fun changeSet =>
            dropOut type i
              { acc with
                documentSet := acc.documentSet.erase oldDoc.key
                changeSet := changeSet
                mutatedKeys := acc.mutatedKeys.erase oldDoc.key }

/-- `Drop documents out to meet limit/limitToLast requirement.` -/
def dropToLimit (limit : Option Limit) (acc : ViewDocumentChanges comparator) :
    Except Crash (ViewDocumentChanges comparator) :=
  match limit with
  | none => .ok acc
  | some limit =>
      if limit.count < acc.documentSet.size then
        dropOut limit.type (acc.documentSet.size - limit.count) acc
      else .ok acc

/-- What `ComputeDocumentChanges` starts from. -/
def View.start (view : View comparator) :
    Option (ViewDocumentChanges comparator) → ViewDocumentChanges comparator
  | none => ⟨view.documentSet, Table.empty, view.mutatedKeys, false⟩
  | some previousChanges => { previousChanges with needsRefill := false }

/-- `ComputeDocumentChanges`. -/
def View.computeDocumentChanges (view : View comparator) (query : Query) (docChanges : DocumentMap)
    (previousChanges : Option (ViewDocumentChanges comparator)) :
    Except Crash (ViewDocumentChanges comparator) :=
  let start := view.start previousChanges
  (docChanges.rows.foldlM (view.applyDocChange query start.documentSet) start).bind
    fun changed =>
      (dropToLimit query.limit changed).bind fun dropped =>
        if dropped.needsRefill && previousChanges.isSome then
          .error (.hardAssert
            "View was refilled using docs that themselves needed refilling.")
        else .ok dropped

/-! ## One entry -/

section Entry

variable {view : View comparator} {limit : Option Limit} {query : Query}

/-- The mutated keys are those of the documents with local mutations. -/
def Mutated (docs : DocumentSet comparator) (mutatedKeys : Finset DocumentKey) : Prop :=
  ∀ key, key ∈ mutatedKeys ↔ ∃ d, docs.getDocument key = some d ∧ d.hasLocalMutations

/-- Changes that lead from the documents of the view to others. -/
structure Tracks (view : View comparator) (changes : ViewDocumentChanges comparator) :
    Prop where
  diff : ∀ key, Diff key (view.documentSet.getDocument key)
    (changes.documentSet.getDocument key) (changeAt changes.changeSet key)
  mutated : Mutated changes.documentSet changes.mutatedKeys

/-- What the view has of a document after an entry. -/
def next (view : View comparator) (limit : Option Limit) (query : Query)
    (docs : DocumentSet comparator) (e : KeyedDocument) : Option Document :=
  if (view.changeOf limit docs e.key (matching query e)).isSome then matching query e
  else docs.getDocument e.key

theorem next_of_none {docs : DocumentSet comparator} {e : KeyedDocument}
    (h : view.changeOf limit docs e.key (matching query e) = none) :
    next view limit query docs e = docs.getDocument e.key := by
  simp [next, h]

theorem next_of_some {docs : DocumentSet comparator} {e : KeyedDocument}
    {c : DocumentViewChange × Bool}
    (h : view.changeOf limit docs e.key (matching query e) = some c) :
    next view limit query docs e = matching query e := by
  simp [next, h]

/-- Another document may come in after an entry. -/
def refills (view : View comparator) (limit : Option Limit) (query : Query)
    (docs : DocumentSet comparator) (e : KeyedDocument) : Bool :=
  (view.changeOf limit docs e.key (matching query e)).any (·.2)

/-- A change is from the old document to the new one. -/
theorem diff_of_changeOf {docs : DocumentSet comparator} {e : KeyedDocument}
    {change : DocumentViewChange} {refill : Bool}
    (h : view.changeOf limit docs e.key (matching query e) = some (change, refill)) :
    Diff e.key (docs.getDocument e.key) (matching query e) (some change) := by
  unfold View.changeOf at h
  cases hold : docs.getDocument e.key with
  | none =>
      cases hnew : matching query e with
      | none => simp [hold, hnew] at h
      | some d =>
          simp only [hold, hnew, Option.some.injEq, Prod.mk.injEq] at h
          obtain ⟨rfl, -⟩ := h
          exact .added (key_of_matching hnew)
  | some o =>
      cases hnew : matching query e with
      | none =>
          simp only [hold, hnew, Option.some.injEq, Prod.mk.injEq] at h
          obtain ⟨rfl, -⟩ := h
          exact .removed o (docs.key_of_getDocument hold)
      | some d =>
          have hkey := key_of_matching hnew
          simp only [hold, hnew] at h
          by_cases hdata : o.data ≠ d.data
          · rw [if_pos hdata] at h
            split at h
            · cases h
            · cases h
              exact .modified o hkey
          · rw [if_neg hdata] at h
            split at h
            · cases h
              exact .metadata hkey (not_ne_iff.mp hdata).symm
            · cases h

/-- A shown document stands for the one that the local store has: it has the same
data, or its local mutations are committed and it waits for the backend. -/
def StandsFor (shown actual : Document) : Prop :=
  shown.hasLocalMutations ∧ actual.hasCommittedMutations ∨
    shown.data = actual.data ∧ shown.hasLocalMutations = actual.hasLocalMutations

theorem StandsFor.refl (d : Document) : StandsFor d d := .inr ⟨rfl, rfl⟩

theorem not_hasLocalMutations {d : Document} (h : d.hasCommittedMutations) :
    d.hasLocalMutations = false := by
  unfold Document.hasCommittedMutations at h
  rw [Document.hasLocalMutations, of_decide_eq_true h]
  rfl

/-- A document that stays although there is another one stands for it, if the
mutated keys are those of the documents the view had. -/
theorem standsFor_of_changeOf_eq_none (hmutated : Mutated view.documentSet view.mutatedKeys)
    {e : KeyedDocument} {o d : Document} (hold : view.documentSet.getDocument e.key = some o)
    (hnew : matching query e = some d)
    (h : view.changeOf limit view.documentSet e.key (matching query e) = none) :
    StandsFor o d := by
  have hkey : decide (e.key ∈ view.mutatedKeys) = o.hasLocalMutations := by
    rw [Bool.eq_iff_iff, decide_eq_true_eq, hmutated e.key, hold]
    simp
  simp only [View.changeOf, hold, hnew, hkey] at h
  by_cases hdata : o.data ≠ d.data
  · -- the change is suppressed
    rw [if_pos hdata] at h
    split at h
    · next hwait =>
      simp only [shouldWaitForSyncedDocument, Bool.and_eq_true] at hwait
      exact .inl hwait.1
    · cases h
  · rw [if_neg hdata] at h
    split at h
    · cases h
    · next hpending =>
      rw [not_ne_iff] at hpending
      simp only [Option.isSome_some, Option.any_some, Bool.true_and] at hpending
      cases hlocal : d.hasLocalMutations with
      | true =>
          refine .inr ⟨not_ne_iff.mp hdata, ?_⟩
          rw [hpending, hlocal, Bool.true_or]
      | false =>
          rw [hlocal, Bool.false_or] at hpending
          cases hshown : o.hasLocalMutations with
          | true =>
              rw [hshown, Bool.true_and] at hpending
              exact .inl ⟨hshown, hpending.symm⟩
          | false => exact .inr ⟨not_ne_iff.mp hdata, hshown.trans hlocal.symm⟩

/-- After an entry the view has what stands for its document. -/
theorem rel_next {docs : DocumentSet comparator} {e : KeyedDocument}
    (hkeep : ∀ o d, docs.getDocument e.key = some o → matching query e = some d →
      view.changeOf limit docs e.key (matching query e) = none → StandsFor o d) :
    Option.Rel StandsFor (next view limit query docs e) (matching query e) := by
  cases hchange : view.changeOf limit docs e.key (matching query e) with
  | some c =>
      rw [next_of_some hchange]
      cases matching query e with
      | none => exact .none
      | some d => exact .some (.refl d)
  | none =>
      rw [next_of_none hchange]
      cases hold : docs.getDocument e.key with
      | none =>
          cases hnew : matching query e with
          | none => exact .none
          | some d => simp [View.changeOf, hold, hnew] at hchange
      | some o =>
          cases hnew : matching query e with
          | none => simp [View.changeOf, hold, hnew] at hchange
          | some d => exact .some (hkeep o d hold hnew hchange)

theorem key_of_next {docs : DocumentSet comparator} {e : KeyedDocument} {d : Document}
    (h : next view limit query docs e = some d) : d.key = e.key := by
  unfold next at h
  split at h
  · exact key_of_matching h
  · exact docs.key_of_getDocument h

theorem mem_ite_insert {key key' : DocumentKey} {s : Finset DocumentKey} (p : Bool) :
    (key ∈ if p then insert key' s else s.erase key') ↔
      if key = key' then p = true else key ∈ s := by
  by_cases hkey : key = key'
  · cases p <;> simp [hkey]
  · cases p <;> simp [hkey]

variable (query)

/-- **One entry.** -/
theorem applyDocChange_ok {docs : DocumentSet comparator}
    {acc : ViewDocumentChanges comparator} (hacc : Tracks view acc) {e : KeyedDocument}
    (hold : acc.documentSet.getDocument e.key = docs.getDocument e.key) :
    ∃ acc', view.applyDocChange query docs acc e = .ok acc' ∧ Tracks view acc' ∧
      (∀ key, acc'.documentSet.getDocument key =
        if key = e.key then next view query.limit query docs e
        else acc.documentSet.getDocument key) ∧
      acc'.needsRefill = (acc.needsRefill || refills view query.limit query docs e) := by
  cases hchange : view.changeOf query.limit docs e.key (matching query e) with
  | none =>
      refine ⟨acc, ?_, hacc, ?_, ?_⟩
      · simp only [View.applyDocChange, hchange]
      · intro key
        rw [next_of_none hchange, ← hold]
        split
        · next hkey => rw [hkey]
        · rfl
      · rw [refills, hchange, Option.any_none, Bool.or_false]
  | some c =>
      obtain ⟨change, refill⟩ := c
      have hdiff := diff_of_changeOf hchange
      rw [← hold] at hdiff
      obtain ⟨changeSet, hadd, hat, hothers⟩ := addChange_ok (hacc.diff e.key) hdiff
      have hget : ∀ key, (match matching query e with
          | some d => acc.documentSet.insert d
          | none => acc.documentSet.erase e.key).getDocument key =
            if key = e.key then matching query e else acc.documentSet.getDocument key := by
        intro key
        cases hnew : matching query e with
        | none => exact acc.documentSet.getDocument_erase e.key key
        | some d => rw [DocumentSet.getDocument_insert, key_of_matching hnew]
      rw [next_of_some hchange, refills, hchange]
      simp only [View.applyDocChange, hchange, hadd]
      refine ⟨_, rfl, ⟨?_, ?_⟩, hget, rfl⟩
      · intro key
        rw [hget]
        by_cases hkey : key = e.key
        · rw [if_pos hkey, hkey]
          exact hat
        · rw [if_neg hkey, hothers key hkey]
          exact hacc.diff key
      · intro key
        rw [hget]
        refine (mem_ite_insert _).trans ?_
        by_cases hkey : key = e.key
        · rw [if_pos hkey, if_pos hkey, Option.any_eq_true]
        · rw [if_neg hkey, if_neg hkey]
          exact hacc.mutated key

/-- All entries. -/
theorem foldlM_applyDocChange_ok {docs : DocumentSet comparator} {es : List KeyedDocument}
    (hes : es.Pairwise fun e e' => e.key ≠ e'.key) {acc : ViewDocumentChanges comparator}
    (hacc : Tracks view acc)
    (hold : ∀ e ∈ es, acc.documentSet.getDocument e.key = docs.getDocument e.key) :
    ∃ acc', es.foldlM (view.applyDocChange query docs) acc = .ok acc' ∧
      Tracks view acc' ∧
      DocumentSet.Overlays es (next view query.limit query docs) acc.documentSet acc'.documentSet ∧
      acc'.needsRefill = (acc.needsRefill || es.any (refills view query.limit query docs)) := by
  induction es generalizing acc with
  | nil => exact ⟨acc, rfl, hacc, ⟨by simp, fun _ _ => rfl⟩, (Bool.or_false _).symm⟩
  | cons e es ih =>
      obtain ⟨hfresh, hes'⟩ := List.pairwise_cons.mp hes
      obtain ⟨holde, hold'⟩ := List.forall_mem_cons.mp hold
      obtain ⟨acc₁, hstep, hacc₁, hget₁, hrefill₁⟩ :=
        applyDocChange_ok query hacc holde
      have hold₁ : ∀ e' ∈ es,
          acc₁.documentSet.getDocument e'.key = docs.getDocument e'.key := by
        intro e' he'
        rw [hget₁, if_neg (hfresh e' he').symm, hold' e' he']
      obtain ⟨acc₂, hfold, hacc₂, hover, hrefill₂⟩ := ih hes' hacc₁ hold₁
      refine ⟨acc₂, ?_, hacc₂, ⟨?_, ?_⟩, ?_⟩
      · rw [List.foldlM_cons, hstep]
        exact hfold
      · refine List.forall_mem_cons.mpr ⟨?_, hover.of_mem⟩
        rw [hover.of_not_mem e.key fun e' he' => (hfresh e' he').symm, hget₁, if_pos rfl]
      · intro key hkey
        obtain ⟨hne, hkey'⟩ := List.forall_mem_cons.mp hkey
        rw [hover.of_not_mem key hkey', hget₁, if_neg hne.symm]
      · rw [hrefill₂, hrefill₁, List.any_cons, Bool.or_assoc]

end Entry

/-! ## Dropping to the limit -/

section Drop

variable {view : View comparator}

theorem toFinset_erase {docs : DocumentSet comparator} {m : Document}
    (hm : m ∈ docs.documents) :
    (docs.erase m.key).documents.toFinset = docs.documents.toFinset.erase m := by
  refine Finset.ext fun d => ?_
  rw [List.mem_toFinset, DocumentSet.mem_erase, Finset.mem_erase, List.mem_toFinset, and_comm]
  refine and_congr_left fun hd => not_congr ?_
  exact ⟨docs.unique d hd m hm, congrArg Document.key⟩

theorem size_erase {docs : DocumentSet comparator} {m : Document}
    (hm : m ∈ docs.documents) : (docs.erase m.key).size + 1 = docs.size := by
  rw [← card_documents, ← card_documents, toFinset_erase hm]
  exact Finset.card_erase_add_one (List.mem_toFinset.mpr hm)

/-- A document leaves. -/
theorem Tracks.drop {acc : ViewDocumentChanges comparator} (h : Tracks view acc)
    {m : Document} (hm : m ∈ acc.documentSet.documents) :
    ∃ changeSet, addChange acc.changeSet ⟨m, .removed⟩ = .ok changeSet ∧
      Tracks view { acc with
        documentSet := acc.documentSet.erase m.key
        changeSet := changeSet
        mutatedKeys := acc.mutatedKeys.erase m.key } := by
  have hremoved : Diff m.key (acc.documentSet.getDocument m.key) none
      (some ⟨m, .removed⟩) := by
    rw [acc.documentSet.getDocument_of_mem hm]
    exact .removed m rfl
  obtain ⟨changeSet, hadd, hat, hothers⟩ := addChange_ok (h.diff m.key) hremoved
  refine ⟨changeSet, hadd, ?_, ?_⟩
  · intro key
    rw [DocumentSet.getDocument_erase]
    by_cases hkey : key = m.key
    · rw [if_pos hkey, hkey]
      exact hat
    · rw [if_neg hkey, hothers key hkey]
      exact h.diff key
  · intro key
    rw [DocumentSet.getDocument_erase, Finset.mem_erase]
    by_cases hkey : key = m.key
    · simp [hkey]
    · rw [if_neg hkey, ← h.mutated key]
      exact and_iff_right hkey

/-- **Dropping.**  What is left is the window of what was there. -/
theorem dropOut_ok (type : LimitType) {count i : Nat} {acc : ViewDocumentChanges comparator}
    (hacc : Tracks view acc) (hsize : acc.documentSet.size = count + i) :
    ∃ acc', dropOut type i acc = .ok acc' ∧ Tracks view acc' ∧
      acc'.needsRefill = acc.needsRefill ∧
      Window (limitPlace type comparator) count acc.documentSet.documents.toFinset
        acc'.documentSet.documents.toFinset := by
  induction i generalizing acc with
  | zero =>
      refine ⟨acc, rfl, hacc, rfl, Window.of_card_le ?_⟩
      exact ((card_documents acc.documentSet).trans hsize).le
  | succ i ih =>
      have hne : acc.documentSet.documents ≠ [] := by
        intro hnil
        rw [DocumentSet.size, hnil] at hsize
        simp at hsize
      obtain ⟨d, hd⟩ := List.exists_mem_of_ne_nil _ hne
      obtain ⟨m, hedge⟩ := limitEdge_of_mem type hd
      obtain ⟨hm, hlast⟩ := lt_limitEdge hedge
      obtain ⟨changeSet, hadd, htracks⟩ := hacc.drop hm
      have hsize' : (acc.documentSet.erase m.key).size = count + i := by
        have hcard := size_erase hm
        omega
      obtain ⟨acc', hdrop, hacc', hrefill, hwindow⟩ := ih htracks hsize'
      refine ⟨acc', ?_, hacc', hrefill, ?_⟩
      · rw [dropOut, hedge]
        simp only [hadd]
        exact hdrop
      · rw [toFinset_erase hm] at hwindow
        refine Window.of_erase (List.mem_toFinset.mpr hm) ?_ ?_ hwindow
        · rw [card_documents, hsize]
          omega
        · intro b hb hne'
          exact hlast b (List.mem_toFinset.mp hb) hne'

theorem dropToLimit_ok (limit : Option Limit) {acc : ViewDocumentChanges comparator}
    (hacc : Tracks view acc) :
    ∃ acc', dropToLimit limit acc = .ok acc' ∧ Tracks view acc' ∧
      acc'.needsRefill = acc.needsRefill ∧
      Keeps limit acc.documentSet acc'.documentSet := by
  cases limit with
  | none => exact ⟨acc, rfl, hacc, rfl, rfl⟩
  | some limit =>
      unfold dropToLimit
      by_cases hlt : limit.count < acc.documentSet.size
      · simp only [if_pos hlt]
        exact dropOut_ok limit.type hacc (Nat.add_sub_cancel' hlt.le).symm
      · simp only [if_neg hlt]
        refine ⟨acc, rfl, hacc, rfl, Window.of_card_le ?_⟩
        rw [card_documents]
        exact not_lt.mp hlt

end Drop

end ValentinesDay.Ports.QueryView
