import Mathlib.Algebra.GroupWithZero.Nat
import Mathlib.Data.List.TakeWhile
import ValentinesDay.Ports.Hearts

/-!
# The array the listeners of `showpoints` share

Every callback appends its point once for each unlocked document of the
snapshot, and nothing ever takes a point out: neither what the array holds
already nor what the last snapshot carried is looked at.

Deliveries are arbitrary here, in any order and to any listener; the page of
`ValentinesDay.Ports.Hearts` is one source of them.

## Main results

* `pointAnnotations_eq` — the array is the deliveries, written out.
* `annotations_once_iff` — no point is in the array twice exactly when each
  listener is given one unlocked document at most, in the whole run.
-/

namespace ValentinesDay.Ports.SharedAnnotations

open ValentinesDay.Verified.Fallible
open ValentinesDay.Verified.Run
open ValentinesDay.Ports.Runtime
open ValentinesDay.Ports.Firestore
open ValentinesDay.Ports.Persistence
open ValentinesDay.Ports.HomePage
open ValentinesDay.Ports.Hearts

instance : DecidablePred IsUnlocked := fun d =>
  inferInstanceAs (Decidable (d.data.bool "Locked" = some false))

/-- One call of a listener. -/
structure Delivery where
  listener : Nat
  response : QueryResponse

/-- A delivery reaches the map if there is such a listener. -/
def deliver (coordinates : List Coordinate) (m : MapState) (d : Delivery) :
    Except Crash MapState :=
  if d.listener < coordinates.length then showpoints d.listener m d.response else .ok m

abbrev step (coordinates : List Coordinate) :
    Except Crash MapState → Delivery → Except Crash MapState :=
  halting (deliver coordinates)

/-- The map before the first delivery. -/
def MapState.launched : MapState where
  pointAnnotations := []
  annotations := ∅
  title _ := none

/-- The map after the deliveries, or the crash. -/
def mapAfter (coordinates : List Coordinate) (es : List Delivery) :
    Except Crash MapState :=
  exec (step coordinates) (.ok MapState.launched) es

/-! ## The array is the deliveries, written out -/

/-- Documents of a response that read as unlocked. -/
def unlockedDocuments : QueryResponse → Nat
  | .error => 0
  | .snapshot documents => documents.countP fun d => IsUnlocked d

/-- The points a delivery appends. -/
def appends (coordinates : List Coordinate) (d : Delivery) : List Nat :=
  if d.listener < coordinates.length then
    List.replicate (unlockedDocuments d.response) d.listener
  else []

/-- Unlocked documents the listener was given, counted with every snapshot. -/
def unlockedGiven (listener : Nat) (es : List Delivery) : Nat :=
  (es.map fun d =>
    if d.listener = listener then unlockedDocuments d.response else 0).sum

theorem pointAnnotations_showDocuments {point : Nat} {documents : List QueryDocument}
    {m m' : MapState} (h : showDocuments point m documents = .ok m') :
    m'.pointAnnotations = m.pointAnnotations ++
      List.replicate (documents.countP fun d => IsUnlocked d) point := by
  induction documents generalizing m with
  | nil =>
      cases h
      simp
  | cons d documents ih =>
      simp only [showDocuments, bind_eq_ok_iff, castBool_eq_ok] at h
      obtain ⟨islocked, hcast, hrest⟩ := h
      have hbool : d.data.bool "Locked" = some islocked := hcast
      cases islocked with
      | true =>
          have hlocked : ¬IsUnlocked d := by simp [IsUnlocked, hbool]
          rw [ih hrest, List.countP_cons_of_neg (by simpa using hlocked)]
      | false =>
          have hunlocked : IsUnlocked d := hbool
          rw [ih hrest, List.countP_cons_of_pos (by simpa using hunlocked),
            List.replicate_succ]
          simp [MapState.addAnnotations]

theorem pointAnnotations_deliver {coordinates : List Coordinate} {m m' : MapState}
    {d : Delivery} (h : deliver coordinates m d = .ok m') :
    m'.pointAnnotations = m.pointAnnotations ++ appends coordinates d := by
  unfold deliver at h
  unfold appends
  split at h
  · next hlistener =>
      rw [if_pos hlistener]
      cases hresponse : d.response with
      | error =>
          rw [hresponse] at h
          cases h
          simp [unlockedDocuments]
      | snapshot documents =>
          rw [hresponse] at h
          exact pointAnnotations_showDocuments h
  · next hlistener =>
      cases h
      rw [if_neg hlistener, List.append_nil]

/-- The array of a live process holds these points. -/
def Holds (p : Except Crash MapState) (points : List Nat) : Prop :=
  Ends (fun m => m.pointAnnotations = points) (fun _ => True) p

theorem holds_step {coordinates : List Coordinate} (p : Except Crash MapState)
    (d : Delivery) (points : List Nat) (h : Holds p points) :
    Holds (step coordinates p d) (points ++ appends coordinates d) := by
  refine ends_halting h ?_
  intro m _ hm
  cases hdeliver : deliver coordinates m d with
  | error c => trivial
  | ok m' =>
      show m'.pointAnnotations = _
      rw [pointAnnotations_deliver hdeliver, hm]

/-- **Run lemma.**  The array holds what the deliveries append, in their order. -/
theorem pointAnnotations_eq {coordinates : List Coordinate} {es : List Delivery}
    {m : MapState} (h : mapAfter coordinates es = .ok m) :
    m.pointAnnotations = es.flatMap (appends coordinates) := by
  have h0 : Holds (.ok MapState.launched) [] := rfl
  have hrun : Holds (mapAfter coordinates es)
      (trace (step coordinates) (fun _ d => appends coordinates d)
        (.ok MapState.launched) es) := trace_inv holds_step h0 es
  rw [trace_event] at hrun
  exact Ends.of_ok hrun h

/-! ## No point twice -/

section Count

variable {coordinates : List Coordinate} {es : List Delivery}

theorem count_appends {i : Nat} (hi : i < coordinates.length) (d : Delivery) :
    (appends coordinates d).count i =
      if d.listener = i then unlockedDocuments d.response else 0 := by
  unfold appends
  split
  · simp [List.count_replicate]
  · next hlistener =>
      have hne : d.listener ≠ i := by
        rintro rfl
        exact hlistener hi
      rw [if_neg hne, List.count_nil]

/-- A point is in the array as often as its listener was given an unlocked
document. -/
theorem count_pointAnnotations {i : Nat} (hi : i < coordinates.length) :
    (es.flatMap (appends coordinates)).count i = unlockedGiven i es := by
  rw [List.count_flatMap]
  unfold unlockedGiven
  refine congrArg List.sum (List.map_congr_left ?_)
  intro d _
  exact count_appends hi d

theorem lt_of_mem_appends {i : Nat} {d : Delivery} (h : i ∈ appends coordinates d) :
    i < coordinates.length := by
  unfold appends at h
  split at h
  · next hlistener =>
      rw [List.eq_of_mem_replicate h]
      exact hlistener
  · cases h

theorem unlockedGiven_append (i : Nat) (es fs : List Delivery) :
    unlockedGiven i (es ++ fs) = unlockedGiven i es + unlockedGiven i fs := by
  simp only [unlockedGiven, List.map_append, List.sum_append]

theorem unlockedGiven_le_of_isPrefix {pre : List Delivery} (hpre : pre <+: es)
    (i : Nat) : unlockedGiven i pre ≤ unlockedGiven i es := by
  obtain ⟨post, rfl⟩ := hpre
  rw [unlockedGiven_append]
  exact Nat.le_add_right _ _

end Count

/-- No point is in the array twice, and it is no longer than the list of
coordinates.  A process that has ended has no array. -/
def AtMostOnce (coordinates : List Coordinate) : Except Crash MapState → Prop
  | .ok m =>
      m.pointAnnotations.Nodup ∧ m.pointAnnotations.length ≤ coordinates.length
  | .error _ => True

instance (coordinates : List Coordinate) :
    DecidablePred (AtMostOnce coordinates) := fun p => by
  cases p <;> unfold AtMostOnce <;> infer_instance

theorem atMostOnce_iff {coordinates : List Coordinate} {es : List Delivery}
    {m : MapState} (h : mapAfter coordinates es = .ok m) :
    AtMostOnce coordinates (mapAfter coordinates es) ↔
      ∀ i < coordinates.length, unlockedGiven i es ≤ 1 := by
  have harray := pointAnnotations_eq h
  rw [h]
  constructor
  · rintro ⟨hnodup, -⟩ i hi
    rw [← count_pointAnnotations hi, ← harray]
    exact List.nodup_iff_count_le_one.mp hnodup i
  · intro hgiven
    have hbound : ∀ i ∈ m.pointAnnotations, i < coordinates.length := by
      intro i hi
      rw [harray] at hi
      obtain ⟨d, -, hd⟩ := List.mem_flatMap.mp hi
      exact lt_of_mem_appends hd
    have hnodup : m.pointAnnotations.Nodup := by
      refine List.nodup_iff_count_le_one.mpr ?_
      intro i
      by_cases hi : i ∈ m.pointAnnotations
      · rw [harray, count_pointAnnotations (hbound i hi)]
        exact hgiven i (hbound i hi)
      · rw [List.count_eq_zero_of_not_mem hi]
        exact Nat.zero_le 1
    refine ⟨hnodup, ?_⟩
    have hsubset : m.pointAnnotations ⊆ List.range coordinates.length := by
      intro i hi
      exact List.mem_range.mpr (hbound i hi)
    have hlength := (hnodup.subperm hsubset).length_le
    rwa [List.length_range] at hlength

/-! ## Runs that end the process

`as! Bool` ends the process at a document without a `Bool` in `Locked`, whatever
the array holds; later deliveries reach nobody. -/

/-- The callback gets through the snapshot. -/
def Castable (coordinates : List Coordinate) (d : Delivery) : Prop :=
  match d.response with
  | .error => True
  | .snapshot documents =>
      d.listener < coordinates.length → ∀ document ∈ documents, HasLocked document

instance (coordinates : List Coordinate) : DecidablePred (Castable coordinates) :=
  fun d => by
    unfold Castable
    split <;> infer_instance

theorem castable_iff {coordinates : List Coordinate} {m : MapState} {d : Delivery} :
    Castable coordinates d ↔ ∃ m', deliver coordinates m d = .ok m' := by
  unfold Castable deliver
  split
  · next hresponse =>
      rw [hresponse]
      simp [showpoints]
  · next documents hresponse =>
      rw [hresponse]
      by_cases hlistener : d.listener < coordinates.length
      · rw [if_pos hlistener]
        constructor
        · intro h
          exact showDocuments_hasLocked (h hlistener) d.listener m
        · rintro ⟨m', h⟩ -
          exact hasLocked_of_showDocuments h
      · simp [hlistener]

theorem mapAfter_of_castable {coordinates : List Coordinate} {es : List Delivery}
    (h : ∀ d ∈ es, Castable coordinates d) : ∃ m, mapAfter coordinates es = .ok m := by
  have hstep : ∀ (m : MapState) (d : Delivery), Castable coordinates d →
      ∃ m', deliver coordinates m d = .ok m' := fun _ _ hd => castable_iff.mp hd
  exact exists_exec_halting hstep MapState.launched h

/-- Up to the first snapshot that ends the process, each listener is given one
unlocked document at most, in all its snapshots together. -/
def GivenOnce (coordinates : List Coordinate) (es : List Delivery) : Prop :=
  ∀ i < coordinates.length,
    unlockedGiven i (es.takeWhile fun d => Castable coordinates d) ≤ 1

theorem throughout_atMostOnce_iff (coordinates : List Coordinate)
    (es : List Delivery) :
    Throughout (step coordinates) (AtMostOnce coordinates) (.ok MapState.launched) es ↔
      GivenOnce coordinates es := by
  have hfails : ∀ (m : MapState) (d : Delivery), decide (Castable coordinates d) = false →
      ∃ c, deliver coordinates m d = .error c := by
    intro m d hd
    cases hdeliver : deliver coordinates m d with
    | error c => exact ⟨c, rfl⟩
    | ok m' => exact absurd (castable_iff.mpr ⟨m', hdeliver⟩) (of_decide_eq_false hd)
  rw [throughout_halting_takeWhile (fun _ => trivial) hfails]
  have hcastable : ∀ d ∈ es.takeWhile (fun d => Castable coordinates d),
      Castable coordinates d := by
    intro d hd
    have hcastable := List.mem_takeWhile_imp hd
    exact of_decide_eq_true hcastable
  unfold GivenOnce
  generalize es.takeWhile (fun d => Castable coordinates d) = landed at hcastable
  constructor
  · intro h
    obtain ⟨m, hm⟩ := mapAfter_of_castable hcastable
    exact (atMostOnce_iff hm).mp h.last
  · intro hgiven
    refine throughout_iff_prefixes.mpr ?_
    intro pre hpre
    obtain ⟨m, hm⟩ := mapAfter_of_castable fun d hd => hcastable d (hpre.subset hd)
    refine (atMostOnce_iff hm).mpr ?_
    intro i hi
    exact (unlockedGiven_le_of_isPrefix hpre i).trans (hgiven i hi)

/-! ## The page as the source of the snapshots -/

section Page

variable {order : QueryOrder} {coordinates : List Coordinate}

/-- A snapshot of the page as a delivery. -/
def Delivery.ofSnapshot (snapshot : Nat × List QueryDocument) : Delivery where
  listener := snapshot.1
  response := .snapshot snapshot.2

/-- `AtMostOnce` of the page's map. -/
def PageAtMostOnce (coordinates : List Coordinate) (p : Except Crash MapPage) : Prop :=
  AtMostOnce coordinates (p.map MapPage.map)

instance (coordinates : List Coordinate) :
    DecidablePred (PageAtMostOnce coordinates) := fun p =>
  inferInstanceAs (Decidable (AtMostOnce coordinates (p.map MapPage.map)))

/-- A live page shows the map of its deliveries; a dead one delivers nothing. -/
def Follows (coordinates : List Coordinate) :
    Except Crash MapPage → Except Crash MapState → Prop
  | .ok page, q => q = .ok page.map
  | .error _, q => AtMostOnce coordinates q

/-- The deliveries an event of the page makes. -/
def delivered (order : QueryOrder) (coordinates : List Coordinate)
    (p : Except Crash MapPage) (e : MapEvent) : List Delivery :=
  (deliveries order coordinates p e).map Delivery.ofSnapshot

theorem length_delivered_le (p : Except Crash MapPage) (e : MapEvent) :
    (delivered order coordinates p e).length ≤ 1 := by
  unfold delivered
  rw [List.length_map]
  unfold deliveries
  split
  · split
    · exact Nat.zero_le 1
    · split
      · exact Nat.le_refl 1
      · exact Nat.zero_le 1
  · exact Nat.zero_le 1

/-- A delivery is the map's own step, and no other event touches the map. -/
theorem follows_step (p : Except Crash MapPage) (e : MapEvent)
    (q : Except Crash MapState) (h : Follows coordinates p q)
    (hq : AtMostOnce coordinates q) :
    Follows coordinates (Hearts.step order coordinates p e)
      ((delivered order coordinates p e).foldl (step coordinates) q) := by
  cases p with
  | error c => exact h
  | ok page =>
      have hmap : q = .ok page.map := h
      subst hmap
      rw [Hearts.step, halting_ok]
      cases e with
      | scan value =>
          simp only [MapPage.step]
          cases giveQRCodeValue value with
          | error c => exact hq
          | ok effects => rfl
      | solve clue => rfl
      | deliver listener version =>
          cases hcoordinate : coordinates[listener]? with
          | none =>
              cases version with
              | none =>
                  simp only [MapPage.step, delivered, deliveries, hcoordinate]
                  rfl
              | some version =>
                  simp only [MapPage.step, delivered, deliveries, hcoordinate]
                  rfl
          | some coordinate =>
              have hlistener : listener < coordinates.length :=
                (List.getElem?_eq_some_iff.mp hcoordinate).1
              cases version with
              | none =>
                  simp only [MapPage.step, delivered, deliveries, hcoordinate]
                  rfl
              | some version =>
                  by_cases hoffers : page.Offers listener version
                  · simp only [MapPage.step, delivered, deliveries, hcoordinate,
                      if_pos hoffers, List.map_cons, List.map_nil, List.foldl_cons,
                      List.foldl_nil, Delivery.ofSnapshot, step, halting_ok, deliver,
                      if_pos hlistener]
                    cases hmap : showpoints listener page.map (.snapshot
                      (query order coordinate (page.server.versions version))) with
                    | error c => trivial
                    | ok map => rfl
                  · simp only [MapPage.step, delivered, deliveries, hcoordinate,
                      if_neg hoffers]
                    rfl

/-- **No duplicates.**  Whatever the snapshots and their order, no point is in
the array twice exactly when each listener is given one unlocked document at
most, in the whole run; and so for the page, over any store. -/
theorem annotations_once_iff (coordinates : List Coordinate) :
    (∀ es : List Delivery,
      Throughout (step coordinates) (AtMostOnce coordinates)
        (.ok MapState.launched) es ↔ GivenOnce coordinates es) ∧
    (∀ (order : QueryOrder) (store0 : Store) (es : List MapEvent),
      Throughout (Hearts.step order coordinates) (PageAtMostOnce coordinates)
        (.ok (MapPage.launched store0)) es ↔
      GivenOnce coordinates
        ((deliveriesOf order coordinates store0 es).map Delivery.ofSnapshot)) := by
  refine ⟨throughout_atMostOnce_iff coordinates, ?_⟩
  intro order store0 es
  have hagree : ∀ p q, Follows coordinates p q →
      (PageAtMostOnce coordinates p ↔ AtMostOnce coordinates q) := by
    intro p q h
    cases p with
    | error c => exact iff_of_true trivial h
    | ok page =>
        have hmap : q = .ok page.map := h
        rw [hmap]
        rfl
  have h0 : Follows coordinates (.ok (MapPage.launched store0))
      (.ok MapState.launched) := rfl
  rw [← throughout_atMostOnce_iff, deliveriesOf, trace_map]
  exact throughout_refines_iff hagree length_delivered_le follows_step h0 es

end Page

/-- The clue of the first place is found, and then its riddle solved. -/
def solveFoundPlace : List MapEvent :=
  [ .scan "Clue1", .deliver 0 (some 2), .solve "Clue1", .deliver 0 (some 3) ]

theorem solveFoundPlace_appends_twice :
    ¬∀ (order : QueryOrder) (coordinates : List Coordinate) (store0 : Store)
      (es : List MapEvent),
      Throughout (Hearts.step order coordinates) (PageAtMostOnce coordinates)
        (.ok (MapPage.launched store0)) es := by
  intro hclaim
  have honce := hclaim asGiven huntCoordinates onePlaceStore solveFoundPlace
  exact absurd honce (by decide +kernel)

end ValentinesDay.Ports.SharedAnnotations
