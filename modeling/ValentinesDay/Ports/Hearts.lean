import Mathlib.Data.Finset.Union
import ValentinesDay.Ports.HomePage
import ValentinesDay.Verified.Fallible
import ValentinesDay.Verified.Run

/-!
# The hearts on the map

`showpoints` registers one listener for each coordinate.  All of them capture
one array, `pointAnnotations`: a callback that finds an unlocked clue appends
its own point and hands the *whole* array to the map, so every callback also
adds the points of the others again.

The invariant ties three things together: the map shows what the array holds,
the array holds the points whose listener has been given an unlocked clue, and
what a listener has been given was the store of some moment.  Since the app
only ever unlocks, that store tells about the present one.

The query of a listener orders by `number`, so it leaves out a clue without one,
and such a clue gives its place no heart.

## Main results

* `hearts_exact` — the hearts shown are the places with an unlocked clue that
  has a number, as far as the listeners have been told.
-/

namespace ValentinesDay.Ports.Hearts

open ValentinesDay.Verified.Fallible
open ValentinesDay.Verified.Run
open ValentinesDay.Verified.Versions
open ValentinesDay.Ports.Runtime
open ValentinesDay.Ports.Firestore
open ValentinesDay.Ports.Persistence
open ValentinesDay.Ports.HomePage

/-! ## The queries -/

/-- A place of the hunt. -/
structure Coordinate where
  latitude : Rat
  longitude : Rat
  deriving DecidableEq, Repr

/-- The array `coordinates` of `showpoints`, with the decimals of the source. -/
def huntCoordinates : List Coordinate :=
  [ { latitude := 51.47732190791656, longitude := -2.6000862312711153 }
  , { latitude := 51.46742681842741, longitude := -2.598496613656594 }
  , { latitude := 51.4736185470348, longitude := -2.605930292520033 }
  , { latitude := 51.464251246987295, longitude := -2.6104754561791803 }
  , { latitude := 51.457078935129566, longitude := -2.6086913732519545 }
  , { latitude := 51.46599783856721, longitude := -2.616847180934972 }
  , { latitude := 51.46149890630267, longitude := -2.6212649100881014 }
  , { latitude := 51.46313974474589, longitude := -2.6241959035031504 }
  , { latitude := 51.45501437066381, longitude := -2.619141001911581 }
  , { latitude := 51.45593614751162, longitude := -2.6246432121677423 } ]

/-- `order(by: "number")`: some arrangement of the documents. -/
structure QueryOrder where
  arrange : List QueryDocument → List QueryDocument
  perm : ∀ documents, (arrange documents).Perm documents

/-- The documents of the collection `clues`. -/
def clueDocuments (store : Store) : List QueryDocument :=
  store.entries.filterMap fun entry =>
    match entry.1.path with
    | ["clues", documentID] => some { documentID := documentID, data := entry.2 }
    | _ => none

/-- The query matches the document: it can be ordered by its `number`, and its
`Latitude` is that of the coordinate. -/
def Matches (coordinate : Coordinate) (d : QueryDocument) : Prop :=
  (d.data "number").isSome ∧ d.data "Latitude" = some (.number coordinate.latitude)

instance (coordinate : Coordinate) (d : QueryDocument) :
    Decidable (Matches coordinate d) := by
  unfold Matches
  infer_instance

/-- `collection("clues").order(by: "number").whereField("Latitude", …)`. -/
def query (order : QueryOrder) (coordinate : Coordinate) (store : Store) :
    List QueryDocument :=
  order.arrange ((clueDocuments store).filter fun d => Matches coordinate d)

theorem mem_clueDocuments {store : Store} {d : QueryDocument} :
    d ∈ clueDocuments store ↔ store.lookup (clueKey d.documentID) = some d.data := by
  unfold clueDocuments
  rw [List.mem_filterMap]
  constructor
  · rintro ⟨⟨key, data⟩, hentry, hd⟩
    simp only at hd
    split at hd
    · next documentID hpath =>
        cases hd
        have hkey : key = clueKey documentID := by
          obtain ⟨path, hlength⟩ := key
          simp only at hpath
          subst hpath
          rfl
        rw [← hkey]
        exact AList.mem_lookup_iff.mpr hentry
    · cases hd
  · intro hlookup
    exact ⟨⟨clueKey d.documentID, d.data⟩, AList.mem_lookup_iff.mp hlookup, rfl⟩

theorem mem_query {order : QueryOrder} {coordinate : Coordinate} {store : Store}
    {d : QueryDocument} :
    d ∈ query order coordinate store ↔
      store.lookup (clueKey d.documentID) = some d.data ∧ Matches coordinate d := by
  unfold query
  rw [(order.perm _).mem_iff, List.mem_filter, mem_clueDocuments, decide_eq_true_eq]

/-- A document that reads as unlocked. -/
def IsUnlocked (d : QueryDocument) : Prop := d.data.bool "Locked" = some false

/-- The listener of the coordinate is given an unlocked clue. -/
def FoundAt (order : QueryOrder) (coordinate : Coordinate) (store : Store) :
    Prop :=
  ∃ d ∈ query order coordinate store, IsUnlocked d

/-- A clue of the store whose `Latitude` is that of the coordinate. -/
def AtPlace (coordinate : Coordinate) (store : Store) (d : QueryDocument) : Prop :=
  store.lookup (clueKey d.documentID) = some d.data ∧
    d.data "Latitude" = some (.number coordinate.latitude)

/-- The place at the coordinate has an unlocked clue in the store. -/
def UnlockedAt (coordinate : Coordinate) (store : Store) : Prop :=
  ∃ d, AtPlace coordinate store d ∧ IsUnlocked d

/-- One of the unlocked clues of the place has a number. -/
def UnlockedNumberedAt (coordinate : Coordinate) (store : Store) : Prop :=
  ∃ d, AtPlace coordinate store d ∧ (d.data "number").isSome ∧ IsUnlocked d

theorem UnlockedNumberedAt.unlockedAt {coordinate : Coordinate} {store : Store}
    (h : UnlockedNumberedAt coordinate store) : UnlockedAt coordinate store := by
  obtain ⟨d, hplace, -, hunlocked⟩ := h
  exact ⟨d, hplace, hunlocked⟩

/-- The query sees the clues with a number. -/
theorem foundAt_iff {order : QueryOrder} {coordinate : Coordinate} {store : Store} :
    FoundAt order coordinate store ↔ UnlockedNumberedAt coordinate store := by
  constructor
  · rintro ⟨d, hd, hunlocked⟩
    obtain ⟨hlookup, hnumber, hlatitude⟩ := mem_query.mp hd
    exact ⟨d, ⟨hlookup, hlatitude⟩, hnumber, hunlocked⟩
  · rintro ⟨d, ⟨hlookup, hlatitude⟩, hnumber, hunlocked⟩
    exact ⟨d, mem_query.mpr ⟨hlookup, hnumber, hlatitude⟩, hunlocked⟩

/-! ## The callback -/

/-- The array the listeners share, the annotations on the map, and the titles
of the points; a point is the index of its coordinate. -/
structure MapState where
  pointAnnotations : List Nat
  annotations : Finset Nat
  title : Nat → Option String

/-- `mapView?.addAnnotations`: what is shown stays. -/
def MapState.addAnnotations (m : MapState) (points : List Nat) : MapState :=
  { m with annotations := m.annotations ∪ points.toFinset }

/-- The loop over the documents of a snapshot. -/
def showDocuments (point : Nat) (m : MapState) :
    List QueryDocument → Except Crash MapState
  | [] => .ok m
  | d :: documents => do
      let islocked ← castBool (some d.data) "Locked"
      let titled := { m with title := Function.update m.title point (some d.documentID) }
      if islocked = false then
        let appended :=
          { titled with pointAnnotations := titled.pointAnnotations ++ [point] }
        showDocuments point (appended.addAnnotations appended.pointAnnotations) documents
      else showDocuments point titled documents

/-- The callback of `showpoints` for one coordinate. -/
def showpoints (point : Nat) (m : MapState) : QueryResponse → Except Crash MapState
  | .error => .ok m
  | .snapshot documents => showDocuments point m documents

/-- The map shows exactly what the array holds. -/
def MapState.Shared (m : MapState) : Prop :=
  m.annotations = m.pointAnnotations.toFinset

theorem showDocuments_ok {point : Nat} {documents : List QueryDocument}
    {m m' : MapState} (h : showDocuments point m documents = .ok m')
    (hshared : m.Shared) :
    m'.Shared ∧ ∀ k, k ∈ m'.pointAnnotations ↔
      k ∈ m.pointAnnotations ∨ k = point ∧ ∃ d ∈ documents, IsUnlocked d := by
  induction documents generalizing m with
  | nil =>
      cases h
      exact ⟨hshared, by simp⟩
  | cons d documents ih =>
      simp only [showDocuments, bind_eq_ok_iff, castBool_eq_ok] at h
      obtain ⟨islocked, hcast, hrest⟩ := h
      have hbool : d.data.bool "Locked" = some islocked := hcast
      cases islocked with
      | true =>
          obtain ⟨hshared', hmem⟩ := ih hrest hshared
          refine ⟨hshared', ?_⟩
          intro k
          rw [hmem]
          simp [IsUnlocked, hbool]
      | false =>
          have hnext : MapState.Shared
              (MapState.addAnnotations
                { pointAnnotations := m.pointAnnotations ++ [point]
                  annotations := m.annotations
                  title := Function.update m.title point (some d.documentID) }
                (m.pointAnnotations ++ [point])) := by
            unfold MapState.Shared at hshared
            unfold MapState.Shared MapState.addAnnotations
            rw [hshared, List.toFinset_append]
            simp
          obtain ⟨hshared', hmem⟩ := ih hrest hnext
          refine ⟨hshared', ?_⟩
          intro k
          rw [hmem]
          simp only [MapState.addAnnotations, List.mem_append,
            List.mem_singleton, List.exists_mem_cons_iff, IsUnlocked, hbool,
            true_or, and_true]
          constructor
          · rintro ((hk | hk) | hk)
            · exact .inl hk
            · exact .inr hk
            · exact .inr hk.1
          · rintro (hk | hk)
            · exact .inl (.inl hk)
            · exact .inl (.inr hk)

/-- Documents with a `Bool` in `Locked` never stop the loop. -/
theorem showDocuments_hasLocked {documents : List QueryDocument}
    (h : ∀ d ∈ documents, HasLocked d) (point : Nat) (m : MapState) :
    ∃ m', showDocuments point m documents = .ok m' := by
  induction documents generalizing m with
  | nil => exact ⟨m, rfl⟩
  | cons d documents ih =>
      obtain ⟨b, hb⟩ := Option.isSome_iff_exists.mp (h d List.mem_cons_self)
      have hrest := ih fun d' hd' => h d' (List.mem_cons_of_mem d hd')
      simp only [showDocuments, castBool_locked hb, bind, Except.bind]
      cases b with
      | true => exact hrest _
      | false => exact hrest _

/-- A loop that got to its end met a `Bool` in every document. -/
theorem hasLocked_of_showDocuments {point : Nat} {documents : List QueryDocument}
    {m m' : MapState} (h : showDocuments point m documents = .ok m') :
    ∀ d ∈ documents, HasLocked d := by
  induction documents generalizing m with
  | nil => simp
  | cons d documents ih =>
      simp only [showDocuments, bind_eq_ok_iff, castBool_eq_ok] at h
      obtain ⟨islocked, hbool, hrest⟩ := h
      have hd : HasLocked d := Option.isSome_iff_exists.mpr ⟨islocked, hbool⟩
      refine List.forall_mem_cons.mpr ⟨hd, ?_⟩
      cases islocked with
      | true => exact ih hrest
      | false => exact ih hrest

/-! ## The page with its listeners -/

/-- The map of the home page with the store its listeners read. -/
structure MapPage where
  server : Server
  map : MapState
  /-- The version each listener was given last. -/
  received : Nat → Option Nat

/-- The page after `showpoints`, before any listener has been called. -/
def MapPage.launched (store0 : Store) : MapPage where
  server := History.ofState store0
  map := { pointAnnotations := [], annotations := ∅, title := fun _ => none }
  received _ := none

/-- What the hearts can depend on; `deliver _ none` is a callback with an error. -/
inductive MapEvent where
  | scan (value : String)
  /-- A right answer on some riddle screen. -/
  | solve (clue : String)
  | deliver (listener : Nat) (version : Option Nat)
  deriving DecidableEq, Repr

/-- Firestore gives a listener no version older than its last one. -/
def MapPage.Offers (page : MapPage) (listener version : Nat) : Prop :=
  (∀ last ∈ page.received listener, last ≤ version) ∧ version ≤ page.server.now

instance (page : MapPage) (listener version : Nat) :
    Decidable (page.Offers listener version) := by
  unfold MapPage.Offers
  infer_instance

/-- One event of the page for the listed coordinates. -/
def MapPage.step (order : QueryOrder) (coordinates : List Coordinate)
    (page : MapPage) : MapEvent → Except Crash MapPage
  | .scan value => do
      let effects ← giveQRCodeValue value
      return { page with server := effects.foldl Server.perform page.server }
  | .solve clue =>
      .ok { page with
        server := page.server.write
          (.updateData (clueKey clue) "solved" (.bool true)) }
  | .deliver listener version =>
      match coordinates[listener]?, version with
      | none, _ => .ok page
      | some _, none => do
          let map ← showpoints listener page.map .error
          return { page with map := map }
      | some coordinate, some version =>
          if page.Offers listener version then do
            let documents := query order coordinate (page.server.versions version)
            let map ← showpoints listener page.map (.snapshot documents)
            return { page with
              map := map
              received := Function.update page.received listener (some version) }
          else .ok page

abbrev step (order : QueryOrder) (coordinates : List Coordinate) :
    Except Crash MapPage → MapEvent → Except Crash MapPage :=
  halting (MapPage.step order coordinates)

/-- The snapshots an event delivers, with the listener they go to. -/
def deliveries (order : QueryOrder) (coordinates : List Coordinate) :
    Except Crash MapPage → MapEvent → List (Nat × List QueryDocument)
  | .ok page, .deliver listener (some version) =>
      match coordinates[listener]? with
      | none => []
      | some coordinate =>
          if page.Offers listener version then
            [(listener, query order coordinate (page.server.versions version))]
          else []
  | _, _ => []

/-- The page after a run, or the crash that ended it. -/
def pageAfter (order : QueryOrder) (coordinates : List Coordinate) (store0 : Store)
    (es : List MapEvent) : Except Crash MapPage :=
  exec (step order coordinates) (.ok (MapPage.launched store0)) es

/-- The snapshots of a run, in order. -/
def deliveriesOf (order : QueryOrder) (coordinates : List Coordinate)
    (store0 : Store) (es : List MapEvent) : List (Nat × List QueryDocument) :=
  trace (step order coordinates) (deliveries order coordinates)
    (.ok (MapPage.launched store0)) es

/-! ## The app only unlocks -/

/-- A write that leaves the queries alone and locks nothing. -/
def OnlyUnlocks : Write → Prop
  | .setData ref _ => ref = lastPathKey
  | .updateData _ name value =>
      name ≠ "number" ∧ name ≠ "Latitude" ∧ (name = "Locked" → value = .bool false)

theorem onlyUnlocks_scan {value : String} {effects : List Effect}
    (h : giveQRCodeValue value = .ok effects) :
    ∀ w, .write w ∈ effects → OnlyUnlocks w := by
  have hlocked : ∀ ref, OnlyUnlocks (.updateData ref "Locked" (.bool false)) := by
    intro ref
    exact ⟨by decide, by decide, fun _ => rfl⟩
  intro w hw
  rcases giveQRCodeValue_cases h with ⟨-, rfl⟩ | ⟨-, ref, -, rfl⟩
  · simp only [List.mem_cons, Effect.write.injEq, reduceCtorEq, List.not_mem_nil,
      or_false] at hw
    rw [hw]
    exact hlocked _
  · simp only [List.mem_cons, Effect.write.injEq, reduceCtorEq, List.not_mem_nil,
      or_false] at hw
    rcases hw with hw | hw
    · rw [hw]
      rfl
    · rw [hw]
      exact hlocked ref

theorem onlyUnlocks_solve (ref : DocumentKey) :
    OnlyUnlocks (.updateData ref "solved" (.bool true)) :=
  ⟨by decide, by decide, fun h => absurd h (by decide)⟩

/-- What such a write makes of a clue document. -/
theorem lookup_apply_onlyUnlocks {w : Write} (hw : OnlyUnlocks w) {store : Store}
    {clue : String} {data : Fields}
    (h : store.lookup (clueKey clue) = some data) :
    ∃ fields, (w.apply store).lookup (clueKey clue) = some fields ∧
      fields "number" = data "number" ∧ fields "Latitude" = data "Latitude" ∧
      (fields "Locked" = data "Locked" ∨ fields "Locked" = some (.bool false)) := by
  cases w with
  | setData ref entries =>
      have href : ref = lastPathKey := hw
      subst href
      refine ⟨data, ?_, rfl, rfl, .inl rfl⟩
      rw [lookup_setData_ne store (clueKey_ne_lastPathKey clue), h]
  | updateData ref name value =>
      obtain ⟨hnumber, hlatitude, hlocked⟩ := hw
      by_cases hkey : clueKey clue = ref
      · subst hkey
        refine ⟨Function.update data name (some value), ?_, ?_, ?_, ?_⟩
        · rw [lookup_updateData_self, h]
          rfl
        · exact Function.update_of_ne hnumber.symm _ _
        · exact Function.update_of_ne hlatitude.symm _ _
        · by_cases hname : name = "Locked"
          · subst hname
            rw [hlocked rfl]
            exact .inr (Function.update_self _ _ _)
          · exact .inl (Function.update_of_ne (Ne.symm hname) _ _)
      · refine ⟨data, ?_, rfl, rfl, .inl rfl⟩
        rw [lookup_updateData_ne store hkey, h]

theorem foundAt_apply {order : QueryOrder} {coordinate : Coordinate} {w : Write}
    (hw : OnlyUnlocks w) {store : Store} (h : FoundAt order coordinate store) :
    FoundAt order coordinate (w.apply store) := by
  obtain ⟨d, hd, hunlocked⟩ := h
  obtain ⟨hlookup, hnumber, hlatitude⟩ := mem_query.mp hd
  obtain ⟨fields, hlookup', hnumber', hlatitude', hlocked'⟩ :=
    lookup_apply_onlyUnlocks hw hlookup
  refine ⟨{ documentID := d.documentID, data := fields }, mem_query.mpr ⟨hlookup', ?_, ?_⟩, ?_⟩
  · show (fields "number").isSome = true
    rw [hnumber']
    exact hnumber
  · show fields "Latitude" = some (.number coordinate.latitude)
    rw [hlatitude']
    exact hlatitude
  · show (fields "Locked").bind Value.asBool = some false
    unfold IsUnlocked Fields.bool at hunlocked
    rcases hlocked' with hsame | hfalse
    · rw [hsame]
      exact hunlocked
    · rw [hfalse]
      rfl

/-- Every clue document has a `Bool` in `Locked`. -/
def BoolLocked (store : Store) : Prop := ∀ d ∈ clueDocuments store, HasLocked d

instance : DecidablePred BoolLocked := fun store => by
  unfold BoolLocked
  infer_instance

theorem boolLocked_apply {w : Write} (hw : OnlyUnlocks w) {store : Store}
    (h : BoolLocked store) : BoolLocked (w.apply store) := by
  intro d hd
  rw [mem_clueDocuments] at hd
  -- such a write creates no clue document, so there was one before
  have hbefore : (store.lookup (clueKey d.documentID)).isSome := by
    cases w with
    | setData ref entries =>
        have href : ref = lastPathKey := hw
        subst href
        rw [lookup_setData_ne store (clueKey_ne_lastPathKey _)] at hd
        rw [hd]
        rfl
    | updateData ref name value =>
        rw [← isSome_lookup_updateData store ref _ name value, hd]
        rfl
  obtain ⟨data, hdata⟩ := Option.isSome_iff_exists.mp hbefore
  obtain ⟨fields, hlookup', -, -, hlocked'⟩ := lookup_apply_onlyUnlocks hw hdata
  have hhas : HasLocked { documentID := d.documentID, data := data } :=
    h _ (mem_clueDocuments.mpr hdata)
  rw [hd] at hlookup'
  cases hlookup'
  unfold HasLocked Fields.bool at hhas ⊢
  rcases hlocked' with hsame | hfalse
  · rw [hsame]
    exact hhas
  · rw [hfalse]
    rfl

/-! ## The invariant -/

/-- The hearts, the array and what the listeners have been given. -/
structure HeartsInv (order : QueryOrder) (coordinates : List Coordinate)
    (page : MapPage) (given : List (Nat × List QueryDocument)) : Prop where
  shared : page.map.Shared
  array : ∀ i, i ∈ page.map.pointAnnotations ↔
    ∃ documents, (i, documents) ∈ given ∧ ∃ d ∈ documents, IsUnlocked d
  source : ∀ i documents, (i, documents) ∈ given → ∃ coordinate version,
    coordinates[i]? = some coordinate ∧ version ≤ page.server.now ∧
      documents = query order coordinate (page.server.versions version)
  last : ∀ i version, page.received i = some version → ∃ coordinate,
    coordinates[i]? = some coordinate ∧ version ≤ page.server.now ∧
      (i, query order coordinate (page.server.versions version)) ∈ given
  stable : ∀ coordinate, page.server.Stable (FoundAt order coordinate)

theorem heartsInv_launched (order : QueryOrder) (coordinates : List Coordinate)
    (store0 : Store) : HeartsInv order coordinates (MapPage.launched store0) [] where
  shared := rfl
  array i := by simp [MapPage.launched]
  source i documents h := by simp at h
  last i version h := by simp [MapPage.launched] at h
  stable coordinate := History.stable_ofState store0

section Step

variable {order : QueryOrder} {coordinates : List Coordinate} {page : MapPage}
  {given : List (Nat × List QueryDocument)}

/-- A write adds a version and moves nothing else. -/
theorem HeartsInv.write (h : HeartsInv order coordinates page given) {w : Write}
    (hw : OnlyUnlocks w) :
    HeartsInv order coordinates { page with server := page.server.write w } given where
  shared := h.shared
  array := h.array
  source i documents hmem := by
    obtain ⟨coordinate, version, hi, hle, hdocuments⟩ := h.source i documents hmem
    refine ⟨coordinate, version, hi, Nat.le_succ_of_le hle, ?_⟩
    show documents =
      query order coordinate ((page.server.write w).versions version)
    rw [Server.write, History.versions_push_of_le hle]
    exact hdocuments
  last i version hreceived := by
    obtain ⟨coordinate, hi, hle, hmem⟩ := h.last i version hreceived
    refine ⟨coordinate, hi, Nat.le_succ_of_le hle, ?_⟩
    show (i, query order coordinate ((page.server.write w).versions version)) ∈ given
    rw [Server.write, History.versions_push_of_le hle]
    exact hmem
  stable coordinate := (h.stable coordinate).push (foundAt_apply hw)

/-- A delivery is recorded and, if it holds an unlocked clue, puts the point of
its listener on the map. -/
theorem HeartsInv.deliver (h : HeartsInv order coordinates page given)
    {listener version : Nat} {coordinate : Coordinate}
    (hcoordinate : coordinates[listener]? = some coordinate)
    (hoffers : page.Offers listener version) {map : MapState}
    (hmap : showpoints listener page.map
      (.snapshot (query order coordinate (page.server.versions version))) = .ok map) :
    HeartsInv order coordinates
      { page with
        map := map
        received := Function.update page.received listener (some version) }
      (given ++ [(listener, query order coordinate
        (page.server.versions version))]) := by
  obtain ⟨hshared, hmem⟩ := showDocuments_ok hmap h.shared
  refine
    { shared := hshared
      array := ?_
      source := ?_
      last := ?_
      stable := h.stable }
  · intro i
    show i ∈ map.pointAnnotations ↔ _
    rw [hmem, h.array]
    constructor
    · rintro (⟨documents, hgiven, hd⟩ | ⟨rfl, hd⟩)
      · exact ⟨documents, List.mem_append_left _ hgiven, hd⟩
      · exact ⟨_, List.mem_append_right _ (List.mem_singleton_self _), hd⟩
    · rintro ⟨documents, hgiven, hd⟩
      rcases List.mem_append.mp hgiven with hold | hnew
      · exact .inl ⟨documents, hold, hd⟩
      · cases List.mem_singleton.mp hnew
        exact .inr ⟨rfl, hd⟩
  · intro i documents hgiven
    rcases List.mem_append.mp hgiven with hold | hnew
    · exact h.source i documents hold
    · cases List.mem_singleton.mp hnew
      exact ⟨coordinate, version, hcoordinate, hoffers.2, rfl⟩
  · intro i version' hreceived
    by_cases hi : i = listener
    · subst hi
      simp only [Function.update_self, Option.some.injEq] at hreceived
      subst hreceived
      exact ⟨coordinate, hcoordinate, hoffers.2,
        List.mem_append_right _ (List.mem_singleton_self _)⟩
    · simp only [Function.update_of_ne hi] at hreceived
      obtain ⟨coordinate', hi', hle, hgiven⟩ := h.last i version' hreceived
      exact ⟨coordinate', hi', hle, List.mem_append_left _ hgiven⟩

end Step

/-- `HeartsInv` of a page that is alive. -/
def LiveHeartsInv (order : QueryOrder) (coordinates : List Coordinate)
    (p : Except Crash MapPage) (given : List (Nat × List QueryDocument)) : Prop :=
  Ends (HeartsInv order coordinates · given) (fun _ => True) p

section Run

variable {order : QueryOrder} {coordinates : List Coordinate} {store0 : Store}

/-- **Step lemma.**  Scans, right answers and deliveries keep the invariant. -/
theorem heartsInv_step (p : Except Crash MapPage) (e : MapEvent)
    (given : List (Nat × List QueryDocument))
    (h : LiveHeartsInv order coordinates p given) :
    LiveHeartsInv order coordinates (step order coordinates p e)
      (given ++ deliveries order coordinates p e) := by
  refine ends_halting h ?_
  rintro page rfl hp
  cases e with
  | scan value =>
      rw [show deliveries order coordinates (.ok page) (.scan value) = [] from rfl,
        List.append_nil]
      cases hscan : giveQRCodeValue value with
      | error c =>
          simp only [MapPage.step, hscan]
          trivial
      | ok effects =>
          simp only [MapPage.step, hscan]
          have hwrite : ∀ w, .write w ∈ effects → ∀ server,
              HeartsInv order coordinates { page with server := server } given →
              HeartsInv order coordinates
                { page with server := server.write w } given :=
            fun w hw server hserver =>
              hserver.write (onlyUnlocks_scan hscan w hw)
          exact foldl_perform_of_writes hwrite hp
  | solve clue =>
      rw [show deliveries order coordinates (.ok page) (.solve clue) = [] from rfl,
        List.append_nil]
      exact hp.write (onlyUnlocks_solve _)
  | deliver listener version =>
      cases hcoordinate : coordinates[listener]? with
      | none =>
          have hnone : deliveries order coordinates (.ok page)
              (.deliver listener version) = [] := by
            cases version with
            | none => rfl
            | some version => simp only [deliveries, hcoordinate]
          rw [hnone, List.append_nil]
          simp only [MapPage.step, hcoordinate]
          exact hp
      | some coordinate =>
          cases version with
          | none =>
              rw [show deliveries order coordinates (.ok page)
                  (.deliver listener none) = [] from rfl, List.append_nil]
              simp only [MapPage.step, hcoordinate]
              exact hp
          | some version =>
              simp only [MapPage.step, deliveries, hcoordinate]
              by_cases hoffers : page.Offers listener version
              · simp only [if_pos hoffers]
                cases hmap : showpoints listener page.map (.snapshot
                    (query order coordinate (page.server.versions version))) with
                | error c => trivial
                | ok map => exact hp.deliver hcoordinate hoffers hmap
              · simp only [if_neg hoffers, List.append_nil]
                exact hp

/-- **Run lemma.** -/
theorem heartsInv_run (es : List MapEvent) :
    LiveHeartsInv order coordinates (pageAfter order coordinates store0 es)
      (deliveriesOf order coordinates store0 es) := by
  have h0 : LiveHeartsInv order coordinates (.ok (MapPage.launched store0)) [] :=
    heartsInv_launched order coordinates store0
  exact trace_inv heartsInv_step h0 es

end Run

/-! ## A page that stays alive -/

/-- A scan is of an existing clue. -/
def ExistingScan (store0 : Store) : MapEvent → Prop
  | .scan value => IsClue store0 value
  | _ => True

instance (store0 : Store) : DecidablePred (ExistingScan store0) := fun e => by
  cases e <;> unfold ExistingScan <;> infer_instance

/-- The page lives, and no version of the store can stop a listener. -/
def Alive : Except Crash MapPage → Prop :=
  Ends (fun page => page.server.Always BoolLocked) (fun _ => False)

theorem always_boolLocked_write {w : Write} (hw : OnlyUnlocks w) {server : Server}
    (h : server.Always BoolLocked) : (server.write w).Always BoolLocked :=
  h.push (boolLocked_apply hw h.current)

/-- A scan of a document ID has its effects. -/
theorem giveQRCodeValue_of_isDocumentID {value : String} (h : IsDocumentID value) :
    ∃ effects, giveQRCodeValue value = .ok effects := by
  by_cases hclue : value = "Clue10"
  · rw [hclue]
    exact ⟨_, giveQRCodeValue_clue10⟩
  · exact ⟨_, giveQRCodeValue_ok hclue (document_clues h)⟩

theorem alive_step {order : QueryOrder} {coordinates : List Coordinate}
    {store0 : Store} (p : Except Crash MapPage) (e : MapEvent) (h : Alive p)
    (he : ExistingScan store0 e) : Alive (step order coordinates p e) := by
  refine ends_halting h ?_
  intro page _ hlocked
  cases e with
  | scan value =>
      obtain ⟨effects, hscan⟩ := giveQRCodeValue_of_isDocumentID he.id
      simp only [MapPage.step, hscan]
      exact foldl_perform_of_writes
        (fun w hw _ => always_boolLocked_write (onlyUnlocks_scan hscan w hw)) hlocked
  | solve clue =>
      exact always_boolLocked_write (onlyUnlocks_solve _) hlocked
  | deliver listener version =>
      cases hcoordinate : coordinates[listener]? with
      | none =>
          simp only [MapPage.step, hcoordinate]
          exact hlocked
      | some coordinate =>
          cases version with
          | none =>
              simp only [MapPage.step, hcoordinate]
              exact hlocked
          | some version =>
              simp only [MapPage.step, hcoordinate]
              by_cases hoffers : page.Offers listener version
              · have hhas : ∀ d ∈ query order coordinate
                    (page.server.versions version), HasLocked d := by
                  intro d hd
                  exact hlocked version hoffers.2 d
                    (mem_clueDocuments.mpr (mem_query.mp hd).1)
                obtain ⟨map, hmap⟩ :=
                  showDocuments_hasLocked hhas listener page.map
                simp only [if_pos hoffers, showpoints, hmap]
                exact hlocked
              · simp only [if_neg hoffers]
                exact hlocked

/-! ## The hearts are the unlocked places -/

/-- Every listener was last given a version whose clues at its place are those of
the current store. -/
def UpToDate (coordinates : List Coordinate) (page : MapPage) : Prop :=
  ∀ i coordinate, coordinates[i]? = some coordinate → ∃ version,
    page.received i = some version ∧ ∀ d,
      AtPlace coordinate (page.server.versions version) d ↔
        AtPlace coordinate page.server.current d

theorem upToDate_of_received_now {coordinates : List Coordinate} {page : MapPage}
    (h : ∀ i < coordinates.length, page.received i = some page.server.now) :
    UpToDate coordinates page := by
  intro i coordinate hi
  exact ⟨page.server.now, h i (List.getElem?_eq_some_iff.mp hi).1, fun _ => Iff.rfl⟩

/-- The hearts on the map against what the listeners were given and against
the store. -/
structure HeartsExact (coordinates : List Coordinate) (page : MapPage)
    (given : List (Nat × List QueryDocument)) : Prop where
  heart : ∀ i, i ∈ page.map.annotations ↔
    ∃ documents, (i, documents) ∈ given ∧ ∃ d ∈ documents, IsUnlocked d
  places : ∀ i ∈ page.map.annotations, i < coordinates.length
  locked : ∀ i coordinate, coordinates[i]? = some coordinate →
    ¬UnlockedAt coordinate page.server.current → i ∉ page.map.annotations
  settled : UpToDate coordinates page → ∀ i coordinate,
    coordinates[i]? = some coordinate →
    (i ∈ page.map.annotations ↔ UnlockedNumberedAt coordinate page.server.current)

section Exact

variable {order : QueryOrder} {coordinates : List Coordinate} {page : MapPage}
  {given : List (Nat × List QueryDocument)}

theorem HeartsInv.mem_annotations (h : HeartsInv order coordinates page given)
    (i : Nat) : i ∈ page.map.annotations ↔
      ∃ documents, (i, documents) ∈ given ∧ ∃ d ∈ documents, IsUnlocked d := by
  rw [h.shared, List.mem_toFinset, h.array]

/-- A heart is of a place that has an unlocked clue now: its listener was given
one, and the app locks nothing. -/
theorem HeartsInv.unlockedNumberedAt (h : HeartsInv order coordinates page given) {i : Nat}
    (hi : i ∈ page.map.annotations) : ∃ coordinate,
      coordinates[i]? = some coordinate ∧
        UnlockedNumberedAt coordinate page.server.current := by
  obtain ⟨documents, hgiven, hd⟩ := (h.mem_annotations i).mp hi
  obtain ⟨coordinate, version, hcoordinate, hle, rfl⟩ := h.source i documents hgiven
  have hfound : FoundAt order coordinate page.server.current :=
    h.stable coordinate version page.server.now hle (Nat.le_refl _) hd
  exact ⟨coordinate, hcoordinate, foundAt_iff.mp hfound⟩

theorem HeartsInv.exact (h : HeartsInv order coordinates page given) :
    HeartsExact coordinates page given where
  heart := h.mem_annotations
  places i hi := by
    obtain ⟨coordinate, hcoordinate, -⟩ := h.unlockedNumberedAt hi
    exact (List.getElem?_eq_some_iff.mp hcoordinate).1
  locked i coordinate hcoordinate hlocked hi := by
    obtain ⟨coordinate', hcoordinate', hunlocked⟩ := h.unlockedNumberedAt hi
    rw [hcoordinate] at hcoordinate'
    cases hcoordinate'
    exact hlocked hunlocked.unlockedAt
  settled hcurrent i coordinate hcoordinate := by
    constructor
    · intro hi
      obtain ⟨coordinate', hcoordinate', hunlocked⟩ := h.unlockedNumberedAt hi
      rw [hcoordinate] at hcoordinate'
      cases hcoordinate'
      exact hunlocked
    · rintro ⟨d, hplace, hnumber, hunlocked⟩
      obtain ⟨version, hreceived, hsame⟩ := hcurrent i coordinate hcoordinate
      obtain ⟨coordinate', hcoordinate', -, hgiven⟩ := h.last i version hreceived
      rw [hcoordinate] at hcoordinate'
      cases hcoordinate'
      obtain ⟨hlookup, hlatitude⟩ := (hsame d).mpr hplace
      exact (h.mem_annotations i).mpr
        ⟨_, hgiven, d, mem_query.mpr ⟨hlookup, hnumber, hlatitude⟩, hunlocked⟩

end Exact

/-- **The hearts.**  In every state a live page reaches, a coordinate has its
heart exactly when its listener was given an unlocked clue; so no heart is at a
place that is locked, and with all listeners up to date the hearts are the
places with an unlocked clue that has a number.  On a store with a `Bool` in
every `Locked`, scans of existing clues and deliveries in any order leave the
page alive. -/
theorem hearts_exact (order : QueryOrder) (coordinates : List Coordinate)
    (store0 : Store) (es : List MapEvent) :
    (∀ page, pageAfter order coordinates store0 es = .ok page →
      HeartsExact coordinates page (deliveriesOf order coordinates store0 es)) ∧
    (BoolLocked store0 → (∀ e ∈ es, ExistingScan store0 e) →
      ∃ page, pageAfter order coordinates store0 es = .ok page) := by
  constructor
  · intro page hpage
    have hinv : LiveHeartsInv order coordinates
        (pageAfter order coordinates store0 es)
        (deliveriesOf order coordinates store0 es) := heartsInv_run es
    exact HeartsInv.exact (Ends.of_ok hinv hpage)
  · intro hlocked hes
    have h0 : Alive (.ok (MapPage.launched store0)) := History.always_ofState hlocked
    have hC : Along (step order coordinates) (fun _ e => ExistingScan store0 e)
        (.ok (MapPage.launched store0)) es := along_event_iff.mpr hes
    have halive : Alive (pageAfter order coordinates store0 es) :=
      (throughout_of_guard alive_step h0 hC).last
    obtain ⟨page, hpage, -⟩ := Ends.exists_ok halive
    exact ⟨page, hpage⟩

/-- Documents as they come. -/
def asGiven : QueryOrder where
  arrange documents := documents
  perm documents := List.Perm.refl documents

/-- One clue, at the first place of the hunt. -/
def onePlaceStore : Store :=
  (∅ : Store).insert (clueKey "Clue1")
    (Fields.ofList [("Locked", .bool true), ("number", .number 1),
      ("Latitude", .number 51.47732190791656)])

/-- The clue is found between two snapshots; in the end all listeners have the
current store. -/
def findOnePlace : List MapEvent :=
  [.deliver 0 (some 0), .scan "Clue1", .deliver 1 (some 1)] ++
    (List.range 10).map fun i => .deliver i (some 2)

/-- All listeners have been given the current store. -/
def allReceived (order : QueryOrder) (store0 : Store) (es : List MapEvent) : Bool :=
  match pageAfter order huntCoordinates store0 es with
  | .ok page => decide (∀ i < huntCoordinates.length,
      page.received i = some page.server.now)
  | .error _ => false

theorem upToDate_of_allReceived {order : QueryOrder} {store0 : Store} {es : List MapEvent}
    (h : allReceived order store0 es = true) {page : MapPage}
    (hpage : pageAfter order huntCoordinates store0 es = .ok page) :
    UpToDate huntCoordinates page := by
  rw [allReceived, hpage] at h
  exact upToDate_of_received_now (of_decide_eq_true h)

theorem hearts_exact_findOnePlace :
    ∃ page, pageAfter asGiven huntCoordinates onePlaceStore findOnePlace = .ok page ∧
      UpToDate huntCoordinates page ∧ ∀ i coordinate,
        huntCoordinates[i]? = some coordinate →
        (i ∈ page.map.annotations ↔ UnlockedNumberedAt coordinate page.server.current) := by
  have hboth := hearts_exact asGiven huntCoordinates onePlaceStore findOnePlace
  obtain ⟨page, hpage⟩ := hboth.2 (by decide) (by decide)
  have hcurrent := upToDate_of_allReceived (by decide +kernel) hpage
  exact ⟨page, hpage, hcurrent, (hboth.1 page hpage).settled hcurrent⟩

example : (match pageAfter asGiven huntCoordinates onePlaceStore findOnePlace with
    | .ok page => page.map.annotations
    | .error _ => ∅) = {0} := by decide +kernel

/-- An unlocked clue at the first place, without a number. -/
def unnumberedStore : Store :=
  (∅ : Store).insert (clueKey "Clue1")
    (Fields.ofList [("Locked", .bool false), ("Latitude", .number 51.47732190791656)])

/-- The first of the hunt. -/
def firstPlace : Coordinate :=
  { latitude := 51.47732190791656, longitude := -2.6000862312711153 }

/-- All listeners have the store, and the place of the clue has no heart. -/
theorem unnumbered_clue_has_no_heart : ∃ page,
    pageAfter asGiven huntCoordinates unnumberedStore
      ((List.range 10).map fun i => .deliver i (some 0)) = .ok page ∧
    UpToDate huntCoordinates page ∧ huntCoordinates[0]? = some firstPlace ∧
    UnlockedAt firstPlace page.server.current ∧ 0 ∉ page.map.annotations := by
  have hrun : (match pageAfter asGiven huntCoordinates unnumberedStore
      ((List.range 10).map fun i => .deliver i (some 0)) with
      | .ok page => decide (0 ∉ page.map.annotations ∧
          (page.server.current.lookup (clueKey "Clue1")).any fun data =>
            data "Latitude" = some (.number firstPlace.latitude) ∧
              data.bool "Locked" = some false)
      | .error _ => false) = true := by decide +kernel
  cases hpage : pageAfter asGiven huntCoordinates unnumberedStore
      ((List.range 10).map fun i => .deliver i (some 0)) with
  | error c =>
      rw [hpage] at hrun
      cases hrun
  | ok page =>
      rw [hpage] at hrun
      obtain ⟨hheart, hclue⟩ := of_decide_eq_true hrun
      obtain ⟨data, hlookup, hdata⟩ := (Option.any_eq_true _ _).mp hclue
      obtain ⟨hlatitude, hlocked⟩ := of_decide_eq_true hdata
      exact ⟨page, rfl, upToDate_of_allReceived (by decide +kernel) hpage, rfl,
        ⟨⟨"Clue1", data⟩, ⟨hlookup, hlatitude⟩, hlocked⟩, hheart⟩

end ValentinesDay.Ports.Hearts
