import ValentinesDay.Ports.ViewChanges

/-!
# What a view shows

The view has the first of the documents that match (`Shows`), whatever changes
come: a document that it does not know could only come in when one of its own
leaves, and then it asks.  Refilling once is enough.

A document with local mutations that have been committed is held back until the
backend sends it, so what is shown stands for the documents of the local store
(`StandsFor`) and need not be the same.

## Main results

* `shows_of_computeDocumentChanges`, `shows_of_refill` — changes, and refills.
* `Shows.contents_eq` — where no document waits for the backend, the view has the
  data of those that match, as far as the limit goes.
-/

namespace ValentinesDay.Ports.QueryView

open ValentinesDay.Ports.Firestore
open ValentinesDay.Ports.Mutations
open ValentinesDay.Ports.Queries
open ValentinesDay.Ports.LocalDocuments
open ValentinesDay.Ports.DocumentSets
open ValentinesDay.Ports.QueryLimits
open ValentinesDay.Verified.OrderedTable
open ValentinesDay.Verified.FirstMembers

universe u

variable {κ : Type u} [LinearOrder κ] {comparator : DocumentComparator κ}

/-! ## What a view shows -/

section Shows

variable {view : View comparator} {limit : Option Limit} {query : Query}
  {docChanges : DocumentMap} {previousChanges : Option (ViewDocumentChanges comparator)}

theorem pairwise_rows (docs : DocumentMap) :
    docs.rows.Pairwise fun e e' => e.key ≠ e'.key :=
  docs.sorted.imp fun h heq => absurd (congrArg DocumentKey.path heq) (ne_of_lt h)

/-- **All entries, and the limit.** -/
theorem computeDocumentChanges_eq (query : Query) (docChanges : DocumentMap)
    (hstart : Tracks view (view.start previousChanges)) :
    ∃ (changed : DocumentSet comparator) (changes : ViewDocumentChanges comparator),
      view.computeDocumentChanges query docChanges previousChanges =
        (if changes.needsRefill && previousChanges.isSome then
          .error (.hardAssert
            "View was refilled using docs that themselves needed refilling.")
        else .ok changes) ∧
      Tracks view changes ∧
      DocumentSet.Overlays docChanges.rows
        (next view query.limit query (view.start previousChanges).documentSet)
        (view.start previousChanges).documentSet changed ∧
      Keeps query.limit changed changes.documentSet ∧
      changes.needsRefill = docChanges.rows.any
        (refills view query.limit query (view.start previousChanges).documentSet) := by
  obtain ⟨changed, hfold, htracks, hover, hrefill⟩ :=
    foldlM_applyDocChange_ok query (pairwise_rows docChanges) hstart fun _ _ => rfl
  obtain ⟨changes, hdrop, htracks', hrefill', hkeeps⟩ := dropToLimit_ok query.limit htracks
  refine ⟨changed.documentSet, changes, ?_, htracks', hover, hkeeps, ?_⟩
  · simp only [View.computeDocumentChanges, hfold, Except.bind, hdrop]
  · rw [hrefill', hrefill]
    cases previousChanges <;> rfl

/-- The entries are of documents of which the view goes from `result` to
`result'`, and no others of it change. -/
def Covers (query : Query) (docChanges : DocumentMap)
    (result result' : DocumentKey → Option Document) : Prop :=
  ∀ key, result' key =
    match docChanges.find key with
    | some doc => matching query ⟨key, doc⟩
    | none => result key

theorem Covers.of_mem {result result' : DocumentKey → Option Document}
    (h : Covers query docChanges result result') {e : KeyedDocument}
    (he : e ∈ docChanges.rows) : result' e.key = matching query e := by
  rw [h, DocumentMap.find_eq_some_iff.mpr (show ⟨e.key, e.document⟩ ∈ docChanges.rows from he)]

theorem Covers.of_not_mem {result result' : DocumentKey → Option Document}
    (h : Covers query docChanges result result') {key : DocumentKey}
    (hkey : ∀ e ∈ docChanges.rows, e.key ≠ key) : result' key = result key := by
  rw [h]
  cases hfind : docChanges.find key with
  | none => rfl
  | some doc => exact absurd rfl (hkey _ (DocumentMap.find_eq_some_iff.mp hfind))

/-- What a view shows of the documents that match: those of its limit, of
documents that stand for the ones that match. -/
def Shows (limit : Option Limit) (result : DocumentKey → Option Document)
    (docs : DocumentSet comparator) : Prop :=
  ∃ population : DocumentSet comparator,
    (∀ key, Option.Rel StandsFor (population.getDocument key) (result key)) ∧
      Keeps limit population docs

theorem Shows.standsFor {result : DocumentKey → Option Document}
    {docs : DocumentSet comparator} (h : Shows limit result docs) {key : DocumentKey}
    {d : Document} (hd : docs.getDocument key = some d) :
    ∃ a, result key = some a ∧ StandsFor d a := by
  obtain ⟨population, hrel, hkeeps⟩ := h
  obtain ⟨hmem, hkey⟩ := docs.getDocument_eq_some_iff.mp hd
  have hpopulation := population.getDocument_of_mem (hkeeps.mem hmem)
  have hrelKey := hrel d.key
  rw [hpopulation] at hrelKey
  cases hresult : result d.key with
  | none =>
      rw [hresult] at hrelKey
      cases hrelKey
  | some a =>
      rw [hresult] at hrelKey
      cases hrelKey with
      | some hstands => exact ⟨a, hkey ▸ hresult, hstands⟩

/-- Where no other document may come in, a document of a full view stays at its
place or before the edge. -/
theorem exists_next_lt {limit : Limit} {docs : DocumentSet comparator}
    (hfull : docs.size = limit.count) {e : KeyedDocument} {b : Document}
    (hb : docs.getDocument e.key = some b)
    (hrefill : refills view (some limit) query docs e = false)
    {p : κ ⊕ₗ κᵒᵈ} (hbefore : ∀ d ∈ docs.documents, limitPlace limit.type comparator d < p) :
    ∃ d, next view (some limit) query docs e = some d ∧
      limitPlace limit.type comparator d < p := by
  obtain ⟨hmem, -⟩ := docs.getDocument_eq_some_iff.mp hb
  cases hchange : view.changeOf (some limit) docs e.key (matching query e) with
  | none => exact ⟨b, (next_of_none hchange).trans hb, hbefore b hmem⟩
  | some c =>
      obtain ⟨change, refill⟩ := c
      rw [next_of_some hchange]
      rw [refills, hchange, Option.any_some] at hrefill
      obtain ⟨m, hedge⟩ := limitEdge_of_mem limit.type hmem
      have hm := hbefore m (lt_limitEdge hedge).1
      cases hnew : matching query e with
      | none =>
          -- a document of a full view would be gone
          simp only [View.changeOf, hb, hnew, isSome_inLimit hfull hedge, Option.some.injEq,
            Prod.mk.injEq] at hchange
          rw [← hchange.2] at hrefill
          cases hrefill
      | some d =>
          refine ⟨d, rfl, ?_⟩
          simp only [View.changeOf, hb, hnew] at hchange
          by_cases hdata : b.data ≠ d.data
          · rw [if_pos hdata] at hchange
            split at hchange
            · cases hchange
            · cases hchange
              have hinside :
                  ¬limitPlace limit.type comparator m < limitPlace limit.type comparator d := by
                rw [← outsideLimit_iff hfull hedge]
                exact Bool.eq_false_iff.mp hrefill
              exact lt_of_le_of_lt (not_lt.mp hinside) hm
          · have hkey : b.key = d.key :=
              (docs.key_of_getDocument hb).trans (key_of_matching hnew).symm
            rw [← limitPlace_congr hkey (not_ne_iff.mp hdata)]
            exact hbefore b hmem

/-- What stays outside a full view stays behind as many documents as it has. -/
theorem le_card_before {limit : Limit} {docs changed : DocumentSet comparator}
    (hfull : docs.size = limit.count)
    (hover : DocumentSet.Overlays docChanges.rows (next view (some limit) query docs) docs changed)
    (hrefill : docChanges.rows.any (refills view (some limit) query docs) = false)
    {p : κ ⊕ₗ κᵒᵈ} (hbefore : ∀ d ∈ docs.documents, limitPlace limit.type comparator d < p) :
    limit.count ≤ (changed.documents.toFinset.filter fun d =>
      limitPlace limit.type comparator d < p).card := by
  have hsub : docs.keySet ⊆ (changed.documents.toFinset.filter fun d =>
      limitPlace limit.type comparator d < p).image (·.key) := by
    intro key hkey
    obtain ⟨b, hb⟩ := Option.isSome_iff_exists.mp (docs.mem_keySet.mp hkey)
    have hd : ∃ d, changed.getDocument key = some d ∧
        limitPlace limit.type comparator d < p := by
      by_cases hentry : ∃ e ∈ docChanges.rows, e.key = key
      · obtain ⟨e, he, rfl⟩ := hentry
        rw [hover.of_mem e he]
        have hrefillOne := List.any_eq_false.mp hrefill e he
        exact exists_next_lt hfull hb (Bool.eq_false_iff.mpr hrefillOne) hbefore
      · have hnone : ∀ e ∈ docChanges.rows, e.key ≠ key :=
          fun e he heq => hentry ⟨e, he, heq⟩
        exact ⟨b, (hover.of_not_mem key hnone).trans hb,
          hbefore b (docs.getDocument_eq_some_iff.mp hb).1⟩
    obtain ⟨d, hget, hlt⟩ := hd
    obtain ⟨hmem, hdkey⟩ := changed.getDocument_eq_some_iff.mp hget
    exact Finset.mem_image.mpr
      ⟨d, Finset.mem_filter.mpr ⟨List.mem_toFinset.mpr hmem, hlt⟩, hdkey⟩
  have hcard := (Finset.card_le_card hsub).trans Finset.card_image_le
  rwa [docs.card_keySet, hfull] at hcard

/-- The same changes of all documents that match and of those of the view: where no
other document may come in, the limit leaves the same of both. -/
theorem keeps_of_overlays {docs population changed population' kept : DocumentSet comparator}
    (hkept : Keeps limit population docs)
    (hover : DocumentSet.Overlays docChanges.rows (next view limit query docs) docs changed)
    (hover' : DocumentSet.Overlays docChanges.rows (next view limit query docs)
      population population')
    (hrefill : docChanges.rows.any (refills view limit query docs) = false)
    (hkeeps : Keeps limit changed kept) : Keeps limit population' kept := by
  have hsub := hover.mono hover' fun d => hkept.mem
  cases limit with
  | none =>
      cases hkept
      cases hkeeps
      refine DocumentSet.ext_mem fun d => ⟨hsub d, ?_⟩
      exact hover'.mono hover (fun d hd => hd) d
  | some limit =>
      refine Window.mono hkeeps
        (fun d hd => List.mem_toFinset.mpr (hsub d (List.mem_toFinset.mp hd))) ?_
      intro a ha hnot
      have hpop := population'.getDocument_of_mem (List.mem_toFinset.mp ha)
      -- the document is not in an entry, and was outside already
      have hnone : ∀ e ∈ docChanges.rows, e.key ≠ a.key := by
        intro e he hkey
        refine hnot (List.mem_toFinset.mpr ?_)
        rw [← hkey, hover'.of_mem e he, ← hover.of_mem e he] at hpop
        exact (changed.getDocument_eq_some_iff.mp hpop).1
      rw [hover'.of_not_mem a.key hnone] at hpop
      have hmem := (population.getDocument_eq_some_iff.mp hpop).1
      have hout : a ∉ docs.documents.toFinset := by
        intro hin
        have hget := docs.getDocument_of_mem (List.mem_toFinset.mp hin)
        rw [← hover.of_not_mem a.key hnone] at hget
        exact hnot (List.mem_toFinset.mpr (changed.getDocument_eq_some_iff.mp hget).1)
      obtain ⟨hfull, hbefore⟩ := Window.outside hkept a (List.mem_toFinset.mpr hmem) hout
      rw [card_documents] at hfull
      refine le_card_before hfull hover hrefill ?_
      intro d hd
      exact hbefore d (List.mem_toFinset.mpr hd)

/-- The overlay stands for the new result. -/
theorem rel_of_overlays {docs population population' : DocumentSet comparator}
    {result result' : DocumentKey → Option Document}
    (hrel : ∀ key, Option.Rel StandsFor (population.getDocument key) (result key))
    (hover : DocumentSet.Overlays docChanges.rows (next view limit query docs)
      population population')
    (hcovers : Covers query docChanges result result')
    (hkeep : ∀ e ∈ docChanges.rows, ∀ o d, docs.getDocument e.key = some o →
      matching query e = some d →
      view.changeOf limit docs e.key (matching query e) = none → StandsFor o d)
    (key : DocumentKey) : Option.Rel StandsFor (population'.getDocument key) (result' key) := by
  by_cases hentry : ∃ e ∈ docChanges.rows, e.key = key
  · obtain ⟨e, he, rfl⟩ := hentry
    rw [hover.of_mem e he, hcovers.of_mem he]
    exact rel_next (hkeep e he)
  · have hnone : ∀ e ∈ docChanges.rows, e.key ≠ key := fun e he hkey => hentry ⟨e, he, hkey⟩
    rw [hover.of_not_mem key hnone, hcovers.of_not_mem hnone]
    exact hrel key

/-- **Changes.**  After changes of documents the view shows what it should,
unless it asks for more documents. -/
theorem shows_of_computeDocumentChanges {result result' : DocumentKey → Option Document}
    (hmutated : Mutated view.documentSet view.mutatedKeys)
    (hshows : Shows query.limit result view.documentSet)
    (hcovers : Covers query docChanges result result') :
    ∃ changes, view.computeDocumentChanges query docChanges none = .ok changes ∧
      Tracks view changes ∧
      (∀ key d, changes.documentSet.getDocument key = some d →
        ∃ a, result' key = some a ∧ StandsFor d a) ∧
      changes.needsRefill =
        docChanges.rows.any (refills view query.limit query view.documentSet) ∧
      (changes.needsRefill = false → Shows query.limit result' changes.documentSet) := by
  have hstart : Tracks view (view.start none) := ⟨fun _ => .same _, hmutated⟩
  obtain ⟨changed, changes, heq, htracks, hover, hkeeps, hrefill⟩ :=
    computeDocumentChanges_eq query docChanges hstart
  rw [Option.isSome_none, Bool.and_false, if_neg Bool.false_ne_true] at heq
  obtain ⟨population, hrel, hkept⟩ := hshows
  obtain ⟨population', hover'⟩ := population.exists_overlays
    (pairwise_rows docChanges)
    fun e _ d (hd : next view query.limit query view.documentSet e = some d) =>
      key_of_next hd
  have hrel' := rel_of_overlays hrel hover' hcovers fun e _ o d hold hnew =>
    standsFor_of_changeOf_eq_none hmutated hold hnew
  refine ⟨changes, heq, htracks, ?_, hrefill, ?_⟩
  · intro key d hd
    obtain ⟨hmem, rfl⟩ := changes.documentSet.getDocument_eq_some_iff.mp hd
    have hall : Shows none result' population' := ⟨population', hrel', rfl⟩
    have hmem' := hover.mono hover' (fun d hd => hkept.mem hd) d (hkeeps.mem hmem)
    exact hall.standsFor (population'.getDocument_of_mem hmem')
  · intro hno
    rw [hrefill] at hno
    exact ⟨population', hrel', keeps_of_overlays hkept hover hover' hno hkeeps⟩

/-- A document that the local store has does not ask for others. -/
theorem refills_eq_false {docs : DocumentSet comparator} {e : KeyedDocument}
    (hstands : ∀ o, docs.getDocument e.key = some o →
      ∃ d, matching query e = some d ∧ StandsFor o d) :
    refills view limit query docs e = false := by
  unfold refills
  cases hold : docs.getDocument e.key with
  | none => cases hnew : matching query e <;> simp [View.changeOf, hold]
  | some o =>
      obtain ⟨d, hnew, hstands⟩ := hstands o hold
      simp only [View.changeOf, hold, hnew]
      rcases hstands with ⟨hlocal, hcommitted⟩ | ⟨hdata, -⟩
      · have hwait : shouldWaitForSyncedDocument d o = true := by
          rw [shouldWaitForSyncedDocument, hlocal, hcommitted,
            not_hasLocalMutations hcommitted]
          rfl
        rw [if_pos hwait]
        split
        · rfl
        · split <;> rfl
      · rw [if_neg (not_ne_iff.mpr hdata)]
        split <;> rfl

/-- **Refills.**  With all documents that match, the view shows what it should and
asks for no more. -/
theorem shows_of_refill {result : DocumentKey → Option Document} {docs : DocumentMap}
    {previous : ViewDocumentChanges comparator} (hprevious : Tracks view previous)
    (hstands : ∀ key d, previous.documentSet.getDocument key = some d →
      ∃ a, result key = some a ∧ StandsFor d a)
    (hall : Covers query docs (fun _ => none) result) :
    ∃ changes, view.computeDocumentChanges query docs (some previous) = .ok changes ∧
      Tracks view changes ∧ changes.needsRefill = false ∧
      Shows query.limit result changes.documentSet := by
  have hstart : Tracks view (view.start (some previous)) :=
    ⟨hprevious.diff, hprevious.mutated⟩
  obtain ⟨changed, changes, heq, htracks, hover, hkeeps, hrefill⟩ :=
    computeDocumentChanges_eq query docs hstart
  have hentry : ∀ e ∈ docs.rows, ∀ o, previous.documentSet.getDocument e.key = some o →
      ∃ d, matching query e = some d ∧ StandsFor o d := by
    intro e he o ho
    rw [← hall.of_mem he]
    exact hstands e.key o ho
  have hno : changes.needsRefill = false := by
    rw [hrefill]
    refine List.any_eq_false.mpr ?_
    intro e he
    exact Bool.eq_false_iff.mp (refills_eq_false (hentry e he))
  rw [hno, Bool.false_and, if_neg Bool.false_ne_true] at heq
  refine ⟨changes, heq, htracks, hno, changed, ?_, hkeeps⟩
  intro key
  by_cases hkey : ∃ e ∈ docs.rows, e.key = key
  · obtain ⟨e, he, rfl⟩ := hkey
    rw [hover.of_mem e he, hall.of_mem he]
    refine rel_next fun o d hold hnew _ => ?_
    obtain ⟨d', hnew', hstandsFor⟩ := hentry e he o hold
    cases hnew.symm.trans hnew'
    exact hstandsFor
  · -- the view has no document that does not match
    have hnone : ∀ e ∈ docs.rows, e.key ≠ key := fun e he heq => hkey ⟨e, he, heq⟩
    have hresult := hall.of_not_mem hnone
    rw [hover.of_not_mem key hnone, hresult]
    cases hget : previous.documentSet.getDocument key with
    | none =>
        rw [show (view.start (some previous)).documentSet.getDocument key = none from hget]
        exact .none
    | some d =>
        obtain ⟨a, ha, -⟩ := hstands key d hget
        rw [hresult] at ha
        cases ha

/-- When the local store has no document that waits for the backend, the view has
the data of those that match, as far as the limit goes. -/
theorem Shows.contents_eq {docs results : DocumentSet comparator}
    (h : Shows limit result docs)
    (hresults : ∀ key, results.getDocument key = result key)
    (hsettled : ∀ d ∈ results.documents, d.hasCommittedMutations = false) :
    docs.contents = limitTo limit results.contents := by
  obtain ⟨population, hrel, hkeeps⟩ := h
  have hsame : population.SameData results := by
    intro key
    have hkey := hrel key
    rw [← hresults] at hkey
    cases hshown : population.getDocument key with
    | none =>
        rw [hshown] at hkey
        cases hresult : results.getDocument key with
        | none => rfl
        | some a =>
            rw [hresult] at hkey
            cases hkey
    | some d =>
        rw [hshown] at hkey
        cases hresult : results.getDocument key with
        | none =>
            rw [hresult] at hkey
            cases hkey
        | some a =>
            rw [hresult] at hkey
            cases hkey with
            | some hstands =>
                rcases hstands with ⟨-, hcommitted⟩ | ⟨hdata, -⟩
                · have hmem := (results.getDocument_eq_some_iff.mp hresult).1
                  rw [hsettled a hmem] at hcommitted
                  cases hcommitted
                · exact congrArg some hdata
  rw [DocumentSet.contents, hkeeps.documents_eq, map_limitTo]
  exact congrArg (limitTo limit) hsame.contents_eq

theorem shows_empty (limit : Option Limit) :
    Shows limit (fun _ => none) (DocumentSet.empty : DocumentSet comparator) := by
  refine ⟨.empty, fun _ => .none, ?_⟩
  cases limit with
  | none => rfl
  | some limit => exact Window.of_card_le (Nat.zero_le _)

end Shows

end ValentinesDay.Ports.QueryView
