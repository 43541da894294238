import ValentinesDay.Ports.DocumentSets
import ValentinesDay.Verified.FirstMembers

/-!
# The limit of a query

A limit leaves the documents at one end of the results: the first ones in the
order of the query or, for a limit to last, the last ones.  Both the query engine
and the views of queries keep the documents at hand without all others; what they
have to know is when one of the others could come in.

## Main results

* `Keeps.documents_eq` — a window of the results is one end of them.
* `limitTo_eq_of_many` — members behind enough others do not matter to a limit.
-/

namespace ValentinesDay.Ports.QueryLimits

open ValentinesDay.Ports.Mutations
open ValentinesDay.Ports.Queries
open ValentinesDay.Ports.DocumentSets
open ValentinesDay.Verified.OrderedTable
open ValentinesDay.Verified.FirstMembers

universe u v

variable {κ : Type u}

/-! ## Places and edges -/

/-- Where a place comes when those of the limit are first. -/
def towards (type : LimitType) (place : κ) : κ ⊕ₗ κᵒᵈ :=
  directed (decide (type = .last)) place

variable {comparator : DocumentComparator κ}

/-- Where a document comes when the documents of the limit are first. -/
def limitPlace (type : LimitType) (comparator : DocumentComparator κ) (d : Document) :
    κ ⊕ₗ κᵒᵈ :=
  towards type (comparator.place d)

theorem limitPlace_congr {type : LimitType} {d e : Document} (hkey : d.key = e.key)
    (hdata : d.data = e.data) :
    limitPlace type comparator d = limitPlace type comparator e :=
  congrArg (towards type) (comparator.congr d e hkey hdata)

variable [LinearOrder κ]

/-- The end at which documents leave the results: the last document, or the first
for a limit to last. -/
def limitEdge (type : LimitType) (docs : DocumentSet comparator) : Option Document :=
  match type with
  | .first => docs.getLastDocument
  | .last => docs.getFirstDocument

/-- The edge comes last. -/
theorem lt_limitEdge {type : LimitType} {docs : DocumentSet comparator} {m : Document}
    (h : limitEdge type docs = some m) :
    m ∈ docs.documents ∧ ∀ d ∈ docs.documents, d ≠ m →
      limitPlace type comparator d < limitPlace type comparator m := by
  cases type with
  | first =>
      obtain ⟨hm, hlt⟩ := docs.lt_getLastDocument h
      exact ⟨hm, fun d hd hne => directed_false_lt.mpr (hlt d hd hne)⟩
  | last =>
      obtain ⟨hm, hlt⟩ := docs.getFirstDocument_lt h
      exact ⟨hm, fun d hd hne => directed_true_lt.mpr (hlt d hd hne)⟩

theorem limitEdge_of_mem (type : LimitType) {docs : DocumentSet comparator}
    {d : Document} (hd : d ∈ docs.documents) : ∃ m, limitEdge type docs = some m := by
  rw [← Option.isSome_iff_exists]
  cases type with
  | first =>
      rw [limitEdge, DocumentSet.getLastDocument, List.getLast?_isSome]
      exact List.ne_nil_of_mem hd
  | last =>
      rw [limitEdge, DocumentSet.getFirstDocument, List.isSome_head?]
      exact List.ne_nil_of_mem hd

/-! ## Lists in order -/

/-- What a limit leaves of a list in order. -/
def limitTo {α : Type*} (limit : Option Limit) (xs : List α) : List α :=
  match limit with
  | none => xs
  | some ⟨.first, count⟩ => xs.take count
  | some ⟨.last, count⟩ => xs.drop (xs.length - count)

theorem map_limitTo {α β : Type*} (limit : Option Limit) (xs : List α) (f : α → β) :
    (limitTo limit xs).map f = limitTo limit (xs.map f) := by
  rcases limit with _ | ⟨type, count⟩
  · rfl
  · cases type with
    | first => exact List.map_take
    | last => simp only [limitTo, List.map_drop, List.length_map]

theorem limitTo_sublist {α : Type*} (limit : Option Limit) (xs : List α) :
    (limitTo limit xs).Sublist xs := by
  rcases limit with _ | ⟨type, count⟩
  · exact List.Sublist.refl xs
  · cases type with
    | first => exact List.take_sublist _ _
    | last => exact List.drop_sublist _ _

section Lists

variable {α : Type v} [DecidableEq α] {f : α → κ} {limit : Limit} {xs ys : List α}

/-- A limit leaves the window at its end. -/
theorem window_limitTo (hxs : xs.Pairwise fun a b => f a < f b) :
    Window (fun a => towards limit.type (f a)) limit.count xs.toFinset
      (limitTo (some limit) xs).toFinset := by
  obtain ⟨type, count⟩ := limit
  cases type with
  | first => exact Window.take (hxs.imp fun hlt => directed_false_lt.mpr hlt)
  | last =>
      have hreverse : xs.reverse.Pairwise fun a b =>
          towards LimitType.last (f a) < towards LimitType.last (f b) :=
        List.pairwise_reverse.mpr (hxs.imp fun hlt => directed_true_lt.mpr hlt)
      have htake := Window.take (n := count) hreverse
      rwa [List.take_reverse, List.toFinset_reverse, List.toFinset_reverse] at htake

theorem eq_of_toFinset_eq (hxs : xs.Pairwise fun a b => f a < f b)
    (hys : ys.Pairwise fun a b => f a < f b) (h : xs.toFinset = ys.toFinset) : xs = ys := by
  have hirrefl : Std.Irrefl fun a b : α => f a < f b := ⟨fun a => lt_irrefl _⟩
  have hantisymm : Std.Antisymm fun a b : α => f a < f b :=
    ⟨fun a b hab hba => absurd hba (not_lt_of_gt hab)⟩
  refine hxs.eq_of_mem_iff hys fun a => ?_
  rw [← List.mem_toFinset, h, List.mem_toFinset]

/-- **One end.**  A window of a list in order is what the limit leaves of it. -/
theorem eq_limitTo_of_window (hxs : xs.Pairwise fun a b => f a < f b)
    (hys : ys.Pairwise fun a b => f a < f b)
    (h : Window (fun a => towards limit.type (f a)) limit.count xs.toFinset ys.toFinset) :
    ys = limitTo (some limit) xs :=
  eq_of_toFinset_eq hys (hxs.sublist (limitTo_sublist _ _)) (h.unique (window_limitTo hxs))

/-- **More members.**  The limit leaves the same of some members and of all, if
enough of the former come before each that is missing. -/
theorem limitTo_eq_of_many (hxs : xs.Pairwise fun a b => f a < f b)
    (hys : ys.Pairwise fun a b => f a < f b) (hsub : ∀ a ∈ xs, a ∈ ys)
    (hmany : ∀ a ∈ ys, a ∉ xs → limit.count ≤ (xs.toFinset.filter fun b =>
      towards limit.type (f b) < towards limit.type (f a)).card) :
    limitTo (some limit) xs = limitTo (some limit) ys := by
  refine eq_limitTo_of_window hys (hxs.sublist (limitTo_sublist _ _)) ?_
  refine (window_limitTo hxs).mono ?_ ?_
  · intro a ha
    exact List.mem_toFinset.mpr (hsub a (List.mem_toFinset.mp ha))
  · intro a ha hout
    exact hmany a (List.mem_toFinset.mp ha) fun hmem => hout (List.mem_toFinset.mpr hmem)

end Lists

/-! ## Sets of documents -/

/-- The documents that a limit leaves of a population. -/
def Keeps (limit : Option Limit) (population docs : DocumentSet comparator) : Prop :=
  match limit with
  | none => docs = population
  | some limit =>
      Window (limitPlace limit.type comparator) limit.count population.documents.toFinset
        docs.documents.toFinset

theorem Keeps.mem {limit : Option Limit} {population docs : DocumentSet comparator}
    (h : Keeps limit population docs) {d : Document} (hd : d ∈ docs.documents) :
    d ∈ population.documents := by
  cases limit with
  | none => exact (show docs = population from h) ▸ hd
  | some limit =>
      exact List.mem_toFinset.mp (Window.subset h (List.mem_toFinset.mpr hd))

theorem card_documents (docs : DocumentSet comparator) :
    docs.documents.toFinset.card = docs.size :=
  List.toFinset_card_of_nodup docs.sortedSet.nodup

/-- **Limits.**  What is kept is one end of the population. -/
theorem Keeps.documents_eq {limit : Option Limit} {population docs : DocumentSet comparator}
    (h : Keeps limit population docs) :
    docs.documents = limitTo limit population.documents := by
  cases limit with
  | none => exact congrArg DocumentSet.documents h
  | some limit => exact eq_limitTo_of_window population.sortedSet.sorted docs.sortedSet.sorted h

end ValentinesDay.Ports.QueryLimits
