import Mathlib.Data.Sum.Order
import Mathlib.Order.WithBot
import ValentinesDay.Ports.LocalDocuments
import ValentinesDay.Ports.Queries

/-!
# Sets of documents in the order of a query

The results of a query that is listened to are kept in its order.  The
comparator of a query compares the fields it is ordered by and then the keys, so
it reads keys and data only, and two documents are the same to it only if they
have the same key.  How field values compare is left open: values that compare
as the same have the same `rank`.

A `DocumentSet` of the client has an index by key beside the documents in order;
here a document is found by a search.
-/

namespace ValentinesDay.Ports.DocumentSets

open ValentinesDay.Verified.OrderedTable
open ValentinesDay.Ports.Firestore
open ValentinesDay.Ports.Mutations
open ValentinesDay.Ports.Queries
open ValentinesDay.Ports.LocalDocuments

universe u v

/-- An existing document with its key. -/
structure Document where
  key : DocumentKey
  data : ObjectValue
  version : Nat
  state : DocumentState
  deriving DecidableEq

namespace Document

/-- `has_local_mutations`. -/
def hasLocalMutations (d : Document) : Bool := d.state = .kLocalMutations

/-- `has_committed_mutations`. -/
def hasCommittedMutations (d : Document) : Bool := d.state = .kCommittedMutations

/-- `has_pending_writes`. -/
def hasPendingWrites (d : Document) : Bool := d.hasLocalMutations || d.hasCommittedMutations

/-- The document as a row of a map. -/
def toEntry (d : Document) : KeyedDocument := ⟨d.key, .document d.data d.version d.state⟩

end Document

/-- The document of a row, if there is one. -/
def toDocument (e : KeyedDocument) : Option Document :=
  match e.document with
  | .document data version state => some ⟨e.key, data, version, state⟩
  | _ => none

theorem toEntry_of_toDocument {e : KeyedDocument} {d : Document}
    (h : toDocument e = some d) : d.toEntry = e := by
  obtain ⟨key, doc⟩ := e
  cases doc with
  | document data version state =>
      cases h
      rfl
  | noDocument version committed => cases h
  | unknownDocument version => cases h

theorem key_of_toDocument {e : KeyedDocument} {d : Document} (h : toDocument e = some d) :
    d.key = e.key :=
  congrArg KeyedDocument.key (toEntry_of_toDocument h)

/-- The document of an entry, as far as it matches. -/
def matching (query : Query) (e : KeyedDocument) : Option Document :=
  (toDocument e).filter fun d => query.matchesDoc d.key d.data

theorem toEntry_of_matching {query : Query} {e : KeyedDocument} {d : Document}
    (h : matching query e = some d) : d.toEntry = e :=
  toEntry_of_toDocument (Option.filter_eq_some_iff.mp h).1

theorem key_of_matching {query : Query} {e : KeyedDocument} {d : Document}
    (h : matching query e = some d) : d.key = e.key :=
  key_of_toDocument (Option.filter_eq_some_iff.mp h).1

/-! ## Comparators -/

/-- A comparator by the places it gives to documents. -/
structure DocumentComparator (κ : Type u) where
  place : Document → κ
  key_eq : ∀ d e, place d = place e → d.key = e.key
  congr : ∀ d e, d.key = e.key → d.data = e.data → place d = place e

/-- The place of a document that has this key and data. -/
def placeOf {κ : Type u} (comparator : DocumentComparator κ) (p : DocumentKey × ObjectValue) : κ :=
  comparator.place ⟨p.1, p.2, 0, .kSynced⟩

theorem placeOf_eq {κ : Type u} (comparator : DocumentComparator κ) (d : Document) :
    placeOf comparator (d.key, d.data) = comparator.place d :=
  comparator.congr _ _ rfl rfl

/-- `Direction::ApplyTo`. -/
def directed {κ : Type u} (descending : Bool) (a : κ) : κ ⊕ₗ κᵒᵈ :=
  if descending then toLex (.inr (OrderDual.toDual a)) else toLex (.inl a)

theorem directed_injective {κ : Type u} {descending : Bool} {a b : κ}
    (h : directed descending a = directed descending b) : a = b := by
  cases descending with
  | false => simpa [directed] using h
  | true => simpa [directed] using h

theorem directed_false_lt {κ : Type u} [LinearOrder κ] {a b : κ} :
    directed false a < directed false b ↔ a < b :=
  Sum.Lex.inl_lt_inl_iff

theorem directed_true_lt {κ : Type u} [LinearOrder κ] {a b : κ} :
    directed true a < directed true b ↔ b < a :=
  Sum.Lex.inr_lt_inr_iff.trans OrderDual.toDual_lt_toDual

/-- What `OrderBy::Compare` looks at: the key, or the rank of a field's value. -/
def orderPlace {ρ : Type v} (rank : Value → ρ) (orderBy : OrderBy) (d : Document) :
    (WithBot ρ ⊕ₗ (WithBot ρ)ᵒᵈ) ⊕ₗ (ResourcePath ⊕ₗ ResourcePathᵒᵈ) :=
  match orderBy.field with
  | .keyFieldPath => toLex (.inr (directed orderBy.descending d.key.path))
  | .field name =>
      toLex (.inl (directed orderBy.descending ((d.data.lookup name).map rank)))

/-- `Query::Comparator`.  A document that matches has the fields of the orders. -/
def Query.comparator {ρ : Type v} (rank : Value → ρ) (query : Query) :
    DocumentComparator
      (List ((WithBot ρ ⊕ₗ (WithBot ρ)ᵒᵈ) ⊕ₗ (ResourcePath ⊕ₗ ResourcePathᵒᵈ))) where
  place d := query.orderBys.map fun orderBy => orderPlace rank orderBy d
  key_eq d e h := by
    obtain ⟨orderBy, hmem, hkey⟩ := query.exists_key_order
    have hplace : orderPlace rank orderBy d = orderPlace rank orderBy e :=
      List.map_inj_left.mp h orderBy hmem
    simp only [orderPlace, hkey, EmbeddingLike.apply_eq_iff_eq, Sum.inr.injEq] at hplace
    exact documentKey_ext (directed_injective hplace)
  congr d e hkey hdata := by simp only [orderPlace, hkey, hdata]

/-! ## Sets -/

variable {κ : Type u} [LinearOrder κ]

/-- Documents in order, no two with the same key. -/
structure DocumentSet (comparator : DocumentComparator κ) where
  sortedSet : Table comparator.place
  unique : ∀ d ∈ sortedSet.rows, ∀ e ∈ sortedSet.rows, d.key = e.key → d = e

namespace DocumentSet

variable {comparator : DocumentComparator κ}

/-- No documents. -/
def empty : DocumentSet comparator where
  sortedSet := Table.empty
  unique d hd := by cases hd

variable (docs : DocumentSet comparator)

/-- The documents, in order. -/
def documents : List Document := docs.sortedSet.rows

/-- `size`. -/
def size : Nat := docs.documents.length

/-- `GetDocument`. -/
def getDocument (key : DocumentKey) : Option Document :=
  docs.documents.find? fun d => d.key = key

/-- `GetFirstDocument`. -/
def getFirstDocument : Option Document := docs.documents.head?

/-- `GetLastDocument`. -/
def getLastDocument : Option Document := docs.documents.getLast?

/-- `erase`. -/
def erase (key : DocumentKey) : DocumentSet comparator :=
  match docs.getDocument key with
  | none => docs
  | some d =>
      { sortedSet := docs.sortedSet.delete (comparator.place d)
        unique := fun a ha b hb =>
          docs.unique a (Table.mem_delete _ |>.mp ha).1 b (Table.mem_delete _ |>.mp hb).1 }

theorem getDocument_eq_some_iff {key : DocumentKey} {d : Document} :
    docs.getDocument key = some d ↔ d ∈ docs.documents ∧ d.key = key := by
  constructor
  · intro h
    exact ⟨List.mem_of_find?_eq_some h, of_decide_eq_true (List.find?_some h :)⟩
  · rintro ⟨hd, rfl⟩
    cases hget : docs.getDocument d.key with
    | none =>
        have hnone := List.find?_eq_none.mp hget d hd
        simp at hnone
    | some e =>
        have he : e ∈ docs.documents := List.mem_of_find?_eq_some hget
        have hkey : e.key = d.key := of_decide_eq_true (List.find?_some hget :)
        rw [docs.unique e he d hd hkey]

theorem mem_erase {key : DocumentKey} {d : Document} :
    d ∈ (docs.erase key).documents ↔ d ∈ docs.documents ∧ d.key ≠ key := by
  unfold erase
  split
  · next hnone =>
    refine (and_iff_left_of_imp ?_).symm
    rintro hd rfl
    rw [docs.getDocument_eq_some_iff.mpr ⟨hd, rfl⟩] at hnone
    cases hnone
  · next e hsome =>
    obtain ⟨he, rfl⟩ := docs.getDocument_eq_some_iff.mp hsome
    refine (Table.mem_delete _).trans (and_congr_right fun hd => not_congr ?_)
    constructor
    · exact comparator.key_eq d e
    · intro hkey
      rw [docs.unique d hd e he hkey]

/-- `insert`: a document of the same key leaves first. -/
def insert (d : Document) : DocumentSet comparator where
  sortedSet := (docs.erase d.key).sortedSet.put d
  unique a ha b hb hkey := by
    rcases (Table.mem_put _).mp ha with rfl | ⟨ha', -⟩
    · rcases (Table.mem_put _).mp hb with rfl | ⟨hb', -⟩
      · rfl
      · exact absurd hkey.symm (docs.mem_erase.mp hb').2
    · rcases (Table.mem_put _).mp hb with rfl | ⟨hb', -⟩
      · exact absurd hkey (docs.mem_erase.mp ha').2
      · exact (docs.erase d.key).unique a ha' b hb' hkey

theorem mem_insert {d e : Document} :
    e ∈ (docs.insert d).documents ↔ e = d ∨ e ∈ docs.documents ∧ e.key ≠ d.key := by
  refine (Table.mem_put _).trans (or_congr_right ?_)
  refine (and_congr_left' docs.mem_erase).trans ?_
  refine and_iff_left_of_imp fun he hplace => he.2 (comparator.key_eq e d hplace)

@[simp] theorem getDocument_erase (key key' : DocumentKey) :
    (docs.erase key).getDocument key' =
      if key' = key then none else docs.getDocument key' := by
  refine Option.ext fun d => ?_
  rw [getDocument_eq_some_iff, mem_erase]
  by_cases hkey : key' = key
  · subst hkey
    simp
  · rw [if_neg hkey, getDocument_eq_some_iff]
    refine and_congr_left fun hd => and_iff_left ?_
    rw [hd]
    exact hkey

@[simp] theorem getDocument_insert (d : Document) (key : DocumentKey) :
    (docs.insert d).getDocument key =
      if key = d.key then some d else docs.getDocument key := by
  refine Option.ext fun e => ?_
  rw [getDocument_eq_some_iff, mem_insert]
  by_cases hkey : key = d.key
  · subst hkey
    rw [if_pos rfl, Option.some.injEq]
    constructor
    · rintro ⟨rfl | ⟨-, hne⟩, he⟩
      · rfl
      · exact absurd he hne
    · rintro rfl
      exact ⟨.inl rfl, rfl⟩
  · rw [if_neg hkey, getDocument_eq_some_iff]
    constructor
    · rintro ⟨rfl | ⟨he, -⟩, hek⟩
      · exact absurd hek.symm hkey
      · exact ⟨he, hek⟩
    · rintro ⟨he, rfl⟩
      exact ⟨.inr ⟨he, hkey⟩, rfl⟩

@[simp] theorem getDocument_empty (key : DocumentKey) :
    (empty : DocumentSet comparator).getDocument key = none := rfl

/-- **Extensionality.** -/
theorem ext_mem {docs docs' : DocumentSet comparator}
    (h : ∀ d, d ∈ docs.documents ↔ d ∈ docs'.documents) : docs = docs' := by
  have hset : docs.sortedSet = docs'.sortedSet := Table.ext_mem h
  cases docs
  cases docs'
  cases hset
  rfl

theorem key_of_getDocument {key : DocumentKey} {d : Document}
    (h : docs.getDocument key = some d) : d.key = key :=
  (docs.getDocument_eq_some_iff.mp h).2

theorem getDocument_of_mem {d : Document} (h : d ∈ docs.documents) :
    docs.getDocument d.key = some d :=
  docs.getDocument_eq_some_iff.mpr ⟨h, rfl⟩

theorem ext_getDocument {docs docs' : DocumentSet comparator}
    (h : ∀ key, docs.getDocument key = docs'.getDocument key) : docs = docs' := by
  refine ext_mem fun d => ⟨fun hd => ?_, fun hd => ?_⟩
  · exact (docs'.getDocument_eq_some_iff.mp ((h d.key).symm.trans (docs.getDocument_of_mem hd))).1
  · exact (docs.getDocument_eq_some_iff.mp ((h d.key).trans (docs'.getDocument_of_mem hd))).1

theorem lt_getLastDocument {m : Document} (h : docs.getLastDocument = some m) :
    m ∈ docs.documents ∧
      ∀ d ∈ docs.documents, d ≠ m → comparator.place d < comparator.place m := by
  obtain ⟨before, hrows⟩ := List.getLast?_eq_some_iff.mp h
  have hsorted := docs.sortedSet.sorted
  rw [show docs.sortedSet.rows = before ++ [m] from hrows, List.pairwise_append] at hsorted
  rw [hrows]
  refine ⟨List.mem_append_right before (List.mem_singleton_self m), ?_⟩
  intro d hd hne
  rcases List.mem_append.mp hd with hd | hd
  · exact hsorted.2.2 d hd m (List.mem_singleton_self m)
  · exact absurd (List.mem_singleton.mp hd) hne

theorem getFirstDocument_lt {m : Document} (h : docs.getFirstDocument = some m) :
    m ∈ docs.documents ∧
      ∀ d ∈ docs.documents, d ≠ m → comparator.place m < comparator.place d := by
  obtain ⟨after, hrows⟩ := List.head?_eq_some_iff.mp h
  have hsorted := docs.sortedSet.sorted
  rw [show docs.sortedSet.rows = m :: after from hrows, List.pairwise_cons] at hsorted
  rw [hrows]
  refine ⟨List.mem_cons_self, ?_⟩
  intro d hd hne
  rcases List.mem_cons.mp hd with hd | hd
  · exact absurd hd hne
  · exact hsorted.1 d hd

/-- Documents of which those of some entries have become `f`. -/
structure Overlays (es : List KeyedDocument) (f : KeyedDocument → Option Document)
    (docs docs' : DocumentSet comparator) : Prop where
  of_mem : ∀ e ∈ es, docs'.getDocument e.key = f e
  of_not_mem : ∀ key, (∀ e ∈ es, e.key ≠ key) →
    docs'.getDocument key = docs.getDocument key

theorem Overlays.mono {es : List KeyedDocument} {f : KeyedDocument → Option Document}
    {docs₁ docs₁' docs₂ docs₂' : DocumentSet comparator} (h₁ : Overlays es f docs₁ docs₁')
    (h₂ : Overlays es f docs₂ docs₂') (hsub : ∀ d ∈ docs₁.documents, d ∈ docs₂.documents) :
    ∀ d ∈ docs₁'.documents, d ∈ docs₂'.documents := by
  intro d hd
  have hget : docs₁'.getDocument d.key = some d := docs₁'.getDocument_eq_some_iff.mpr ⟨hd, rfl⟩
  have hget' : docs₂'.getDocument d.key = some d := by
    by_cases hentry : ∃ e ∈ es, e.key = d.key
    · obtain ⟨e, he, hkey⟩ := hentry
      rw [← hkey, h₂.of_mem e he, ← h₁.of_mem e he, hkey, hget]
    · have hnone : ∀ e ∈ es, e.key ≠ d.key := fun e he hkey => hentry ⟨e, he, hkey⟩
      rw [h₁.of_not_mem d.key hnone] at hget
      have hmem := hsub d (docs₁.getDocument_eq_some_iff.mp hget).1
      rw [h₂.of_not_mem d.key hnone]
      exact docs₂.getDocument_eq_some_iff.mpr ⟨hmem, rfl⟩
  exact (docs₂'.getDocument_eq_some_iff.mp hget').1

theorem exists_overlays (docs : DocumentSet comparator) {es : List KeyedDocument}
    (hes : es.Pairwise fun e e' => e.key ≠ e'.key) {f : KeyedDocument → Option Document}
    (hf : ∀ e ∈ es, ∀ d ∈ f e, d.key = e.key) :
    ∃ docs' : DocumentSet comparator, Overlays es f docs docs' := by
  induction es with
  | nil => exact ⟨docs, ⟨by simp, fun _ _ => rfl⟩⟩
  | cons e es ih =>
      obtain ⟨hfresh, hes'⟩ := List.pairwise_cons.mp hes
      obtain ⟨hfe, hf'⟩ := List.forall_mem_cons.mp hf
      obtain ⟨docs', hover⟩ := ih hes' hf'
      have hone : ∃ docs'' : DocumentSet comparator, ∀ key, docs''.getDocument key =
          if key = e.key then f e else docs'.getDocument key := by
        cases hd : f e with
        | none => exact ⟨docs'.erase e.key, fun key => docs'.getDocument_erase e.key key⟩
        | some d =>
            refine ⟨docs'.insert d, ?_⟩
            intro key
            rw [getDocument_insert, hfe d hd]
      obtain ⟨docs'', hget⟩ := hone
      refine ⟨docs'', ⟨?_, ?_⟩⟩
      · refine List.forall_mem_cons.mpr ⟨?_, ?_⟩
        · rw [hget, if_pos rfl]
        · intro e' he'
          rw [hget, if_neg (hfresh e' he').symm, hover.of_mem e' he']
      · intro key hkey
        obtain ⟨hne, hkey'⟩ := List.forall_mem_cons.mp hkey
        rw [hget, if_neg hne.symm, hover.of_not_mem key hkey']

/-- The keys of the documents. -/
def keySet : Finset DocumentKey := (docs.documents.map (·.key)).toFinset

theorem mem_keySet {key : DocumentKey} :
    key ∈ docs.keySet ↔ (docs.getDocument key).isSome := by
  rw [keySet, List.mem_toFinset, List.mem_map, Option.isSome_iff_exists]
  simp only [getDocument_eq_some_iff]

theorem card_keySet : docs.keySet.card = docs.size := by
  have hnodup : (docs.documents.map (·.key)).Nodup := by
    refine List.Nodup.map_on ?_ docs.sortedSet.nodup
    exact docs.unique
  rw [keySet, List.toFinset_card_of_nodup hnodup, List.length_map]
  rfl

/-! ### What is read of a set -/

/-- Keys and data, in order. -/
def contents : List (DocumentKey × ObjectValue) := docs.documents.map fun d => (d.key, d.data)

/-- The same data at the same keys. -/
def SameData (docs docs' : DocumentSet comparator) : Prop :=
  ∀ key, (docs.getDocument key).map (·.data) = (docs'.getDocument key).map (·.data)

theorem mem_contents {key : DocumentKey} {data : ObjectValue} :
    (key, data) ∈ docs.contents ↔ (docs.getDocument key).map (·.data) = some data := by
  simp only [contents, List.mem_map, Prod.mk.injEq, Option.map_eq_some_iff,
    getDocument_eq_some_iff]
  constructor
  · rintro ⟨d, hd, hkey, hdata⟩
    exact ⟨d, ⟨hd, hkey⟩, hdata⟩
  · rintro ⟨d, ⟨hd, hkey⟩, hdata⟩
    exact ⟨d, hd, hkey, hdata⟩

theorem pairwise_contents :
    docs.contents.Pairwise fun p q => placeOf comparator p < placeOf comparator q := by
  refine List.pairwise_map.mpr (docs.sortedSet.sorted.imp fun {d e} hlt => ?_)
  rw [placeOf_eq, placeOf_eq]
  exact hlt

/-- The order depends on keys and data only. -/
theorem SameData.contents_eq {docs docs' : DocumentSet comparator} (h : SameData docs docs') :
    docs.contents = docs'.contents := by
  have hirrefl : Std.Irrefl fun p q => placeOf comparator p < placeOf comparator q :=
    ⟨fun p => lt_irrefl _⟩
  have hantisymm : Std.Antisymm fun p q => placeOf comparator p < placeOf comparator q :=
    ⟨fun p q hpq hqp => absurd hpq (not_lt_of_gt hqp)⟩
  refine docs.pairwise_contents.eq_of_mem_iff docs'.pairwise_contents ?_
  rintro ⟨key, data⟩
  rw [mem_contents, mem_contents, h key]

end DocumentSet

end ValentinesDay.Ports.DocumentSets
