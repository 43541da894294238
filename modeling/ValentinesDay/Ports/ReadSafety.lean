import ValentinesDay.Ports.ClueTable
import ValentinesDay.Ports.Hearts
import ValentinesDay.Ports.HomePage
import ValentinesDay.Ports.PassPhrase
import ValentinesDay.Ports.Riddle
import ValentinesDay.Verified.Fallible

/-!
# What a Firestore read can do to the screens

Six callbacks read the store.  `getLastPath` guards what it is given; the list
listeners guard the error but cast `Locked` by force; the other three cast
whatever they are given, the error included.

## Main results

* `reads_safe_iff` — no read crashes the app, and no unusable one changes it,
  exactly in the runs that deliver only what the forced casts accept.
-/

namespace ValentinesDay.Ports.ReadSafety

open ValentinesDay.Verified.Fallible
open ValentinesDay.Verified.Run
open ValentinesDay.Ports.Runtime
open ValentinesDay.Ports.Firestore
open ValentinesDay.Ports.HomePage
open ValentinesDay.Ports.Riddle
open ValentinesDay.Ports.ClueTable
open ValentinesDay.Ports.PassPhrase
open ValentinesDay.Ports.Hearts

/-- The state of the screens that the callbacks read or write. -/
structure Screens where
  /-- `SwipeThroughPage`s presented by `doneIntro`. -/
  swipeThroughPages : Nat
  /-- Routes that `getLastPath` has handed to `loadGeoJson`. -/
  loads : List String
  passKey : PassKey
  riddle : ClueView
  menu : MenuView
  map : MapState

/-- One delivery to one callback. -/
inductive ReadEvent where
  | doneIntro (response : DocumentResponse)
  | checkKeyPhrase (owner : Nat) (response : DocumentResponse)
  | getLastPath (response : DocumentResponse)
  | getRiddle (response : DocumentResponse)
  | getClues (response : QueryResponse)
  | showpoints (point : Nat) (response : QueryResponse)

/-- The callback runs on its screen. -/
def Screens.step (s : Screens) : ReadEvent → Except Crash Screens
  | .doneIntro response => do
      let present ← HomePage.doneIntro response
      return { s with
        swipeThroughPages := s.swipeThroughPages + if present then 1 else 0 }
  | .checkKeyPhrase owner response => do
      let passKey ← PassPhrase.checkKeyPhrase s.passKey owner response
      return { s with passKey := passKey }
  | .getLastPath response =>
      .ok { s with loads := s.loads ++ (HomePage.getLastPath response).toList }
  | .getRiddle response => do
      let riddle ← Riddle.getRiddle s.riddle response
      return { s with riddle := riddle }
  | .getClues response => do
      let menu ← ClueTable.getClues s.menu response
      return { s with menu := menu }
  | .showpoints point response => do
      let map ← Hearts.showpoints point s.map response
      return { s with map := map }

/-- The screens up to a crash. -/
abbrev step : Except Crash Screens → ReadEvent → Except Crash Screens :=
  halting Screens.step

/-! ## What the casts accept -/

/-- The document has the field, with a value that casts to `String`. -/
def HasString (response : DocumentResponse) (field : String) : Prop :=
  (response.data.bind (·.string field)).isSome

/-- The document has the field, with a value that casts to `Bool`. -/
def HasBool (response : DocumentResponse) (field : String) : Prop :=
  (response.data.bind (·.bool field)).isSome

/-- The forced casts of the list listeners succeed on every document. -/
def AllHaveLocked : QueryResponse → Prop
  | .error => True
  | .snapshot documents => ∀ d ∈ documents, HasLocked d

/-- Every forced cast of the callback accepts what it is given. -/
def Castable : ReadEvent → Prop
  | .doneIntro response => HasBool response "done"
  | .checkKeyPhrase _ response =>
      HasString response "password" ∧ HasString response "secretpassword" ∧
        HasString response "love"
  | .getLastPath _ => True
  | .getRiddle response =>
      HasString response "clue" ∧ HasBool response "solved" ∧
        HasString response "key" ∧ HasString response "answer"
  | .getClues response => AllHaveLocked response
  | .showpoints _ response => AllHaveLocked response

/-- An error, a missing document, or one without the fields the callback
needs. -/
def Unusable : ReadEvent → Prop
  | .getLastPath response => ¬HasString response "last-path"
  | .getClues .error => True
  | .showpoints _ .error => True
  | e => ¬Castable e

/-- The callback ends, and leaves the screens alone if it can use nothing of
what it was given. -/
def ReadSafe : Except Crash Screens → ReadEvent → Prop
  | .ok s, e => (∃ s', s.step e = .ok s') ∧ (Unusable e → s.step e = .ok s)
  | .error _, _ => False

theorem castString_ok_iff {response : DocumentResponse} {field : String} :
    (∃ text, castString response.data field = .ok text) ↔ HasString response field := by
  unfold HasString
  simp only [castString_eq_ok, Option.isSome_iff_exists]

theorem castBool_ok_iff {response : DocumentResponse} {field : String} :
    (∃ b, castBool response.data field = .ok b) ↔ HasBool response field := by
  unfold HasBool
  simp only [castBool_eq_ok, Option.isSome_iff_exists]

theorem castPhrases_ok_iff_castable {response : DocumentResponse} {owner : Nat} :
    (∃ phrases, castPhrases response = .ok phrases) ↔
      Castable (.checkKeyPhrase owner response) := by
  refine Iff.trans
    (exists_bind_iff fun _ _ => exists_bind_iff fun _ _ => exists_bind_pure_iff) ?_
  exact and_congr castString_ok_iff (and_congr castString_ok_iff castString_ok_iff)

theorem getRiddle_ok_iff_castable {view : ClueView} {response : DocumentResponse} :
    (∃ view', getRiddle view response = .ok view') ↔
      Castable (.getRiddle response) := by
  refine Iff.trans
    (exists_bind_iff fun _ _ => exists_bind_iff fun _ _ =>
      exists_bind_iff fun _ _ => exists_bind_pure_iff) ?_
  exact and_congr castString_ok_iff (and_congr castBool_ok_iff
    (and_congr castString_ok_iff castString_ok_iff))

theorem getClues_ok_iff {m : MenuView} {response : QueryResponse} :
    (∃ m', getClues m response = .ok m') ↔ AllHaveLocked response := by
  cases response with
  | error => exact ⟨fun _ => trivial, fun _ => ⟨m, rfl⟩⟩
  | snapshot documents =>
      constructor
      · rintro ⟨m', hm'⟩
        exact hasLocked_of_getClues hm'
      · intro hlocked
        exact ⟨_, getClues_snapshot hlocked m⟩

theorem showpoints_ok_iff {point : Nat} {m : MapState} {response : QueryResponse} :
    (∃ m', showpoints point m response = .ok m') ↔ AllHaveLocked response := by
  cases response with
  | error => exact ⟨fun _ => trivial, fun _ => ⟨m, rfl⟩⟩
  | snapshot documents =>
      constructor
      · rintro ⟨m', hm'⟩
        exact hasLocked_of_showDocuments hm'
      · intro hlocked
        exact showDocuments_hasLocked hlocked point m

/-- A callback ends exactly when its forced casts do. -/
theorem step_ok_iff (s : Screens) (e : ReadEvent) :
    (∃ s', s.step e = .ok s') ↔ Castable e := by
  cases e with
  | doneIntro response =>
      exact exists_bind_pure_iff.trans (exists_bind_pure_iff.trans castBool_ok_iff)
  | checkKeyPhrase owner response =>
      exact exists_bind_pure_iff.trans
        (exists_bind_pure_iff.trans castPhrases_ok_iff_castable)
  | getLastPath response => exact ⟨fun _ => trivial, fun _ => ⟨_, rfl⟩⟩
  | getRiddle response => exact exists_bind_pure_iff.trans getRiddle_ok_iff_castable
  | getClues response => exact exists_bind_pure_iff.trans getClues_ok_iff
  | showpoints point response => exact exists_bind_pure_iff.trans showpoints_ok_iff

/-- What a callback can cast and still not use, it ignores. -/
theorem step_unusable (s : Screens) {e : ReadEvent} (hcast : Castable e)
    (hunusable : Unusable e) : s.step e = .ok s := by
  cases e with
  | getLastPath response =>
      have hnone : HomePage.getLastPath response = none := by
        unfold Unusable HasString at hunusable
        cases response with
        | error => rfl
        | snapshot data =>
            cases data with
            | none => rfl
            | some data => simpa [DocumentResponse.data, HomePage.getLastPath] using hunusable
      simp [Screens.step, hnone]
  | getClues response =>
      cases response with
      | error => rfl
      | snapshot documents => exact absurd hcast hunusable
  | showpoints point response =>
      cases response with
      | error => rfl
      | snapshot documents => exact absurd hcast hunusable
  | doneIntro response => exact absurd hcast hunusable
  | checkKeyPhrase owner response => exact absurd hcast hunusable
  | getRiddle response => exact absurd hcast hunusable

/-- **When reads are safe.**  Whatever the screens show, a sequence of
deliveries to the six callbacks leaves the app alive, and leaves alone what an
unusable one was for, exactly when every forced cast of every delivery accepts
what it is given. -/
theorem reads_safe_iff (s : Screens) (es : List ReadEvent) :
    Along step ReadSafe (.ok s) es ↔ ∀ e ∈ es, Castable e := by
  constructor
  · intro hsafe
    have hcast : Along step (fun _ e => Castable e) (.ok s) es := by
      refine hsafe.mono ?_
      intro p e h
      cases p with
      | error c => exact False.elim h
      | ok s => exact (step_ok_iff s e).mp h.1
    exact along_event_iff.mp hcast
  · intro hcast
    have hC : Along step (fun _ e => Castable e) (.ok s) es := along_event_iff.mpr hcast
    have h0 : ∃ s', (.ok s : Except Crash Screens) = .ok s' := ⟨s, rfl⟩
    have hlive : ∀ (p : Except Crash Screens) (e : ReadEvent),
        (∃ s', p = .ok s') → Castable e → ∃ s', step p e = .ok s' := by
      rintro p e ⟨s, rfl⟩ he
      exact (step_ok_iff s e).mpr he
    have hsafe : ∀ (p : Except Crash Screens) (e : ReadEvent),
        (∃ s', p = .ok s') → Castable e → ReadSafe p e := by
      rintro p e ⟨s, rfl⟩ he
      exact ⟨(step_ok_iff s e).mpr he, step_unusable s he⟩
    exact along_of_guard hlive hsafe h0 hC

/-- All screens as they appear, with the riddle of `Clue1` open. -/
def Screens.opened : Screens where
  swipeThroughPages := 0
  loads := []
  passKey := PassKey.launched
  riddle := ClueView.init (some "Clue1")
  menu := MenuView.loaded
  map := { pointAnnotations := [], annotations := ∅, title := fun _ => none }

/-- The only read of a first start without network fails. -/
def offlineStart : List ReadEvent := [.doneIntro .error]

theorem offlineStart_crashes :
    ¬∀ (s : Screens) (es : List ReadEvent), Along step ReadSafe (.ok s) es := by
  intro hclaim
  have hsafe : ReadSafe (.ok Screens.opened) (.doneIntro .error) :=
    (hclaim Screens.opened offlineStart).1
  obtain ⟨⟨s', hs'⟩, -⟩ := hsafe
  have hcrash : Screens.opened.step (.doneIntro .error) =
      .error (.forcedCast "done") := rfl
  rw [hcrash] at hs'
  cases hs'

end ValentinesDay.Ports.ReadSafety
