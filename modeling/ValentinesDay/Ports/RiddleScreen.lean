import ValentinesDay.Ports.Lifecycle
import ValentinesDay.Ports.ReadSafety
import ValentinesDay.Verified.Run

/-!
# One riddle screen over its life

A snapshot changes the stored answer, the text of the key label and its
visibility in different branches of one callback, and presses come at any time
in between: before the first snapshot too, when the answer is nil.

The invariant says that all three are a function of the last snapshot alone.

## Main results

* `riddle_screen_exact` — a press is judged on the last snapshot, and a key is
  shown only while that snapshot is solved.
-/

namespace ValentinesDay.Ports.RiddleScreen

open ValentinesDay.Verified.Fallible
open ValentinesDay.Verified.Run
open ValentinesDay.Ports.Runtime
open ValentinesDay.Ports.Firestore
open ValentinesDay.Ports.Persistence
open ValentinesDay.Ports.Riddle
open ValentinesDay.Ports.Lifecycle

/-- Snapshots, typing and presses of the button. -/
inductive RiddleEvent where
  | deliver (response : DocumentResponse)
  | edit (text : String)
  | checkAnswer

/-- One event of a presented screen. -/
def screenStep (c : OpenClue) : RiddleEvent → Except Crash OpenClue
  | .deliver response => do
      let view ← getRiddle c.view response
      return { c with view := view, delivered := response.data }
  | .edit text => .ok (c.edit text)
  | .checkAnswer => do
      let _ ← checkAnswer c.view
      return c

/-- The screen's life up to a crash. -/
abbrev step : Except Crash OpenClue → RiddleEvent → Except Crash OpenClue :=
  halting screenStep

/-- A delivered snapshot can be cast. -/
def WellFormed : RiddleEvent → Prop
  | .deliver response => ReadSafety.Castable (.getRiddle response)
  | _ => True

instance : DecidablePred WellFormed := fun e => by
  cases e with
  | deliver response =>
      unfold WellFormed ReadSafety.Castable ReadSafety.HasString ReadSafety.HasBool
      infer_instance
  | edit text => exact .isTrue trivial
  | checkAnswer => exact .isTrue trivial

/-- What a listener of the app is given, a screen is given. -/
theorem deliver_eq_screenStep {c : OpenClue} {ref : DocumentKey}
    (href : c.listener = some ref) (server : Server) (version : Option Nat) :
    c.deliver server version = screenStep c (.deliver (server.response ref version)) := by
  cases c
  cases href
  rfl

/-- What was delivered in a run. -/
def deliveries (es : List RiddleEvent) : List DocumentResponse :=
  es.filterMap fun e =>
    match e with
    | .deliver response => some response
    | _ => none

/-- What the user typed in a run. -/
def edits (es : List RiddleEvent) : List String :=
  es.filterMap fun e =>
    match e with
    | .edit text => some text
    | _ => none

/-- After a run the screen has the data of the last delivery, and the field the
last edit. -/
theorem last_of_run {c c' : OpenClue} {es : List RiddleEvent}
    (h : exec step (.ok c) es = .ok c') :
    c'.delivered = (deliveries es).getLast?.elim c.delivered (·.data) ∧
      c'.view.passKeyField = (edits es).getLast?.getD c.view.passKeyField := by
  induction es using List.reverseRecOn generalizing c' with
  | nil =>
      cases h
      exact ⟨rfl, rfl⟩
  | append_singleton es e ih =>
      rw [exec_append, exec_cons, exec_nil] at h
      cases hrun : exec step (.ok c) es with
      | error crash =>
          rw [hrun] at h
          cases h
      | ok c₁ =>
          obtain ⟨hdelivered, hfield⟩ := ih hrun
          rw [hrun, step, halting_ok] at h
          simp only [deliveries, edits, List.filterMap_append, List.filterMap_cons,
            List.filterMap_nil] at hdelivered hfield ⊢
          cases e with
          | deliver response =>
              simp only [screenStep, bind_eq_ok_iff] at h
              obtain ⟨view, hview, hc'⟩ := h
              cases hc'
              obtain ⟨data, -, hupdated⟩ := updated_of_getRiddle_ok hview
              rw [List.getLast?_concat, List.append_nil, hupdated.passKeyField]
              exact ⟨rfl, hfield⟩
          | edit text =>
              cases h
              rw [List.append_nil, List.getLast?_concat]
              exact ⟨hdelivered, rfl⟩
          | checkAnswer =>
              simp only [screenStep, bind_eq_ok_iff] at h
              obtain ⟨effects, -, hc'⟩ := h
              cases hc'
              rw [List.append_nil, List.append_nil]
              exact ⟨hdelivered, hfield⟩

/-! ## The screen follows the last snapshot -/

/-- The screen of the document `ref` knows and shows the last snapshot. -/
structure ScreenInv (ref : DocumentKey) (c : OpenClue) : Prop where
  listener : c.listener = some ref
  clueNumber : ∃ number, c.view.clueNumber = some number ∧
    document "clues" number = .ok ref
  answer : c.view.answer = c.delivered.bind (·.string "answer")
  answerText : ∀ text, c.view.answerText.Shows text ↔ ∃ data,
    c.delivered = some data ∧ data.bool "solved" = some true ∧
      ∃ key, data.string "key" = some key ∧ text = "The Key from this clue is " ++ key

/-- The screen is alive, with `ScreenInv`. -/
def LiveScreenInv (ref : DocumentKey) : Except Crash OpenClue → Prop :=
  Ends (ScreenInv ref) (fun _ => False)

theorem screenInv_present {number : String} {ref : DocumentKey} {c : OpenClue}
    (href : document "clues" number = .ok ref)
    (h : OpenClue.present (some number) = .ok c) : ScreenInv ref c := by
  simp only [OpenClue.present, listenerRef, href] at h
  cases h
  exact
    { listener := rfl
      clueNumber := ⟨number, rfl, href⟩
      answer := rfl
      answerText := fun text => by simp [ClueView.init, UILabel.Shows] }

section Step

variable {ref : DocumentKey} {c : OpenClue}

/-- Whatever a snapshot carries, the screen follows it. -/
theorem ScreenInv.deliver (h : ScreenInv ref c) {view : ClueView} {data : Fields}
    (hupdated : Updated c.view view data) :
    ScreenInv ref { c with view := view, delivered := some data } where
  listener := h.listener
  clueNumber := by
    obtain ⟨number, hnumber, href⟩ := h.clueNumber
    exact ⟨number, hupdated.clueNumber.trans hnumber, href⟩
  answer := hupdated.answer
  answerText text := by
    rw [hupdated.answerText]
    simp only [Option.some.injEq, exists_eq_left']

theorem ScreenInv.edit (h : ScreenInv ref c) (text : String) :
    ScreenInv ref (c.edit text) where
  listener := h.listener
  clueNumber := h.clueNumber
  answer := h.answer
  answerText := h.answerText

/-- A press on a screen that listens can always be carried out. -/
theorem ScreenInv.checkAnswer (h : ScreenInv ref c) :
    Riddle.checkAnswer c.view =
      if c.view.answer = some c.view.passKeyField then
        .ok [ .write (.updateData ref "solved" (.bool true))
            , .showMessage showSuccess ]
      else .ok [.showMessage tryAgainMessage] := by
  obtain ⟨number, hnumber, href⟩ := h.clueNumber
  by_cases hright : c.view.answer = some c.view.passKeyField
  · rw [checkAnswer_right hnumber href hright, if_pos hright]
  · rw [checkAnswer_wrong hright, if_neg hright]

end Step

/-- **Step lemma.**  Snapshots that can be cast, edits and presses keep the
screen alive and in step with the last snapshot. -/
theorem screenInv_step {ref : DocumentKey} (p : Except Crash OpenClue)
    (e : RiddleEvent) (h : LiveScreenInv ref p) (he : WellFormed e) :
    LiveScreenInv ref (step p e) := by
  refine ends_halting h ?_
  intro c _ hc
  cases e with
  | deliver response =>
      obtain ⟨view, hview⟩ : ∃ view, getRiddle c.view response = .ok view :=
        ReadSafety.getRiddle_ok_iff_castable.mpr he
      obtain ⟨data, rfl, hupdated⟩ := updated_of_getRiddle_ok hview
      simp only [screenStep, hview]
      exact hc.deliver hupdated
  | edit text => exact hc.edit text
  | checkAnswer =>
      simp only [screenStep, hc.checkAnswer]
      split <;> exact hc

/-! ## What a press writes and what the label shows -/

/-- The effects of a press against the last snapshot. -/
structure PressExact (c : OpenClue) (effects : List Effect) : Prop where
  /-- Before the first snapshot nothing is written. -/
  early : c.delivered = none → ∀ w, .write w ∉ effects
  solved : ∀ ref, c.listener = some ref →
    (.write (.updateData ref "solved" (.bool true)) ∈ effects ↔ ∃ data,
      c.delivered = some data ∧ data.string "answer" = some c.view.passKeyField)
  /-- Nothing else is written. -/
  others : ∀ w, .write w ∈ effects → ∃ ref, c.listener = some ref ∧
    w = .updateData ref "solved" (.bool true)

/-- A press ends, with the effects the last snapshot calls for. -/
def PressesExact : Except Crash OpenClue → RiddleEvent → Prop
  | .ok c, .checkAnswer =>
      ∃ effects, checkAnswer c.view = .ok effects ∧ PressExact c effects
  | .ok _, _ => True
  | .error _, _ => False

/-- The label shows a text exactly when the last snapshot is solved, and then
the text with the key of that snapshot. -/
def KeyShown : Except Crash OpenClue → Prop
  | .ok c => ∀ text, c.view.answerText.Shows text ↔ ∃ data,
      c.delivered = some data ∧ data.bool "solved" = some true ∧
        ∃ key, data.string "key" = some key ∧
          text = "The Key from this clue is " ++ key
  | .error _ => False

theorem ScreenInv.pressExact {ref : DocumentKey} {c : OpenClue}
    (h : ScreenInv ref c) :
    ∃ effects, Riddle.checkAnswer c.view = .ok effects ∧ PressExact c effects := by
  rw [h.checkAnswer]
  have hanswer : c.view.answer = some c.view.passKeyField ↔ ∃ data,
      c.delivered = some data ∧ data.string "answer" = some c.view.passKeyField := by
    rw [h.answer, Option.bind_eq_some_iff]
  by_cases hright : c.view.answer = some c.view.passKeyField
  · rw [if_pos hright]
    refine ⟨_, rfl, { early := ?_, solved := ?_, others := ?_ }⟩
    · intro hnone
      rw [h.answer, hnone] at hright
      cases hright
    · intro ref' href'
      rw [h.listener] at href'
      cases href'
      simp [hanswer.mp hright]
    · intro w hw
      refine ⟨ref, h.listener, ?_⟩
      simpa using hw
  · rw [if_neg hright]
    refine ⟨_, rfl, { early := by simp, solved := ?_, others := by simp }⟩
    intro ref' _
    rw [← hanswer]
    simp [hright]

/-- **The riddle screen.**  On a screen that opened, in every run of snapshots
that can be cast, edits and presses: a press before the first snapshot writes
nothing, a later one writes `solved` to the document of the screen exactly when
the field holds the answer of the last snapshot, and the label shows the key of
the last snapshot exactly while that one is solved. -/
theorem riddle_screen_exact (number : String) (c : OpenClue)
    (hpresent : OpenClue.present (some number) = .ok c) (es : List RiddleEvent)
    (hes : ∀ e ∈ es, WellFormed e) :
    Along step PressesExact (.ok c) es ∧ Throughout step KeyShown (.ok c) es := by
  obtain ⟨ref, href⟩ : ∃ ref, document "clues" number = .ok ref := by
    simp only [OpenClue.present, listenerRef, bind_eq_ok_iff] at hpresent
    obtain ⟨-, ⟨ref, href, -⟩, -⟩ := hpresent
    exact ⟨ref, href⟩
  have h0 : LiveScreenInv ref (.ok c) := screenInv_present href hpresent
  have hC : Along step (fun _ e => WellFormed e) (.ok c) es := along_event_iff.mpr hes
  have hpress : ∀ (p : Except Crash OpenClue) (e : RiddleEvent),
      LiveScreenInv ref p → WellFormed e → PressesExact p e := by
    intro p e h _
    cases p with
    | error crash => exact False.elim h
    | ok c =>
        have hc : ScreenInv ref c := h
        cases e with
        | checkAnswer => exact hc.pressExact
        | deliver response => trivial
        | edit text => trivial
  have hlabel : ∀ p : Except Crash OpenClue, LiveScreenInv ref p → KeyShown p := by
    intro p h
    cases p with
    | error crash => exact False.elim h
    | ok c => exact ScreenInv.answerText h
  exact ⟨along_of_guard screenInv_step hpress h0 hC,
    (throughout_of_guard screenInv_step h0 hC).mono hlabel⟩

/-- The document of `Clue1`, solved or not. -/
def clue1Riddle (solved : Bool) : DocumentResponse :=
  .snapshot (some (Fields.ofList
    [("clue", .string "Where we met"), ("solved", .bool solved),
      ("key", .string "love"), ("answer", .string "Bristol")]))

/-- A press too early, a wrong one, a right one and the snapshot it causes. -/
def answerLate : List RiddleEvent :=
  [ .checkAnswer, .deliver (clue1Riddle false), .edit "Bath", .checkAnswer
  , .edit "Bristol", .checkAnswer, .deliver (clue1Riddle true) ]

def clue1Screen : OpenClue where
  view := ClueView.init (some "Clue1")
  listener := some (clueKey "Clue1")
  delivered := none

theorem riddle_screen_exact_answerLate :
    Along step PressesExact (.ok clue1Screen) answerLate ∧
      Throughout step KeyShown (.ok clue1Screen) answerLate :=
  riddle_screen_exact "Clue1" clue1Screen rfl answerLate (by decide)

end ValentinesDay.Ports.RiddleScreen
