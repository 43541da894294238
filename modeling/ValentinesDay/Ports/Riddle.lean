import ValentinesDay.Ports.Persistence
import ValentinesDay.Verified.Fallible

/-!
# The riddle screen

`ClueView` listens to the document of one clue.  Its listener stores the
answer, shows the riddle and, once the clue is solved, the key; `checkAnswer`
compares the text field with the stored answer at the moment of the press.
-/

namespace ValentinesDay.Ports.Riddle

open ValentinesDay.Verified.Fallible
open ValentinesDay.Ports.Runtime
open ValentinesDay.Ports.Firestore
open ValentinesDay.Ports.Persistence

/-- The two properties of a label the screen sets. -/
structure UILabel where
  text : Option String
  isHidden : Bool
  deriving DecidableEq, Repr

/-- The stored properties and subviews the screen's code reads or writes. -/
structure ClueView where
  clueNumber : Option String
  answer : Option String
  passKeyField : String
  riddleText : Option String
  answerText : UILabel
  deriving DecidableEq, Repr

/-- `ClueView()` with its `clueNumber` set by the presenting screen. -/
def ClueView.init (clueNumber : Option String) : ClueView where
  clueNumber := clueNumber
  answer := none
  passKeyField := ""
  riddleText := none
  answerText := { text := none, isHidden := false }

/-- `replacingOccurrences(of: "\\n", with: "\n")`: a backslash followed by `n`
becomes a line break. -/
def breakLines : List Char → List Char
  | '\\' :: 'n' :: rest => '\n' :: breakLines rest
  | c :: rest => c :: breakLines rest
  | [] => []

/-- `ClueView.viewDidLoad` registers the listener of `getRiddle` on this
document; without a `clueNumber` there is none. -/
def listenerRef (clueNumber : Option String) : Except Crash (Option DocumentKey) :=
  match clueNumber with
  | none => .ok none
  | some number => do
      let ref ← document "clues" number
      return some ref

/-- The callback of `ClueView.getRiddle`. -/
def getRiddle (view : ClueView) (response : DocumentResponse) :
    Except Crash ClueView := do
  let data := response.data
  let riddle ← castString data "clue"
  let solved ← castBool data "solved"
  let key ← castString data "key"
  let answer ← castString data "answer"
  return { view with
    answer := some answer
    riddleText := some (String.ofList (breakLines riddle.toList))
    answerText :=
      if solved then { text := some ("The Key from this clue is " ++ key), isHidden := false }
      else { view.answerText with isHidden := true } }

/-- `ClueView.showSuccess`. -/
def showSuccess : MessageContent where
  title := "Yay!"
  body := "You Solved The Clue!"
  iconText := none
  buttonTitle := none

/-- `ClueView.tryAgainMessage`. -/
def tryAgainMessage : MessageContent where
  title := "Uh Oh"
  body := "You're so close try again"
  iconText := some "🥶"
  buttonTitle := some "Ok"

/-- `ClueView.checkAnswer`; the comparison is one of `Optional`s. -/
def checkAnswer (view : ClueView) : Except Crash (List Effect) :=
  if some view.passKeyField = view.answer then
    match view.clueNumber with
    | none => .ok []
    | some number => do
        let ref ← document "clues" number
        return [ .write (.updateData ref "solved" (.bool true))
               , .showMessage showSuccess ]
  else .ok [.showMessage tryAgainMessage]

/-! ## What the callbacks do -/

/-- A snapshot `getRiddle` can cast. -/
structure IsRiddle (data : Fields) (riddle key answer : String) (solved : Bool) :
    Prop where
  riddle : data.string "clue" = some riddle
  solved : data.bool "solved" = some solved
  key : data.string "key" = some key
  answer : data.string "answer" = some answer

theorem getRiddle_ok {view : ClueView} {data : Fields}
    {riddle key answer : String} {solved : Bool}
    (h : IsRiddle data riddle key answer solved) :
    getRiddle view (.snapshot (some data)) =
      .ok { view with
        answer := some answer
        riddleText := some (String.ofList (breakLines riddle.toList))
        answerText :=
          if solved then
            { text := some ("The Key from this clue is " ++ key), isHidden := false }
          else { view.answerText with isHidden := true } } := by
  have hclue : castString (some data) "clue" = .ok riddle :=
    castString_eq_ok.mpr h.riddle
  have hsolved : castBool (some data) "solved" = .ok solved :=
    castBool_eq_ok.mpr h.solved
  have hkey : castString (some data) "key" = .ok key := castString_eq_ok.mpr h.key
  have hanswer : castString (some data) "answer" = .ok answer :=
    castString_eq_ok.mpr h.answer
  simp only [getRiddle, DocumentResponse.data, hclue, hsolved, hkey, hanswer]
  rfl

/-- Whatever `getRiddle` did not crash on was a riddle. -/
theorem isRiddle_of_getRiddle_ok {view view' : ClueView}
    {response : DocumentResponse} (h : getRiddle view response = .ok view') :
    ∃ data riddle key answer solved, response = .snapshot (some data) ∧
      IsRiddle data riddle key answer solved := by
  simp only [getRiddle, bind_eq_ok_iff, castString_eq_ok, castBool_eq_ok] at h
  obtain ⟨riddle, hclue, solved, hsolved, key, hkey, answer, hanswer, -⟩ := h
  cases response with
  | error => cases hclue
  | snapshot data =>
      cases data with
      | none => cases hclue
      | some data =>
          exact ⟨data, riddle, key, answer, solved, rfl,
            { riddle := hclue, solved := hsolved, key := hkey, answer := hanswer }⟩

/-- The label shows this text. -/
def UILabel.Shows (label : UILabel) (text : String) : Prop :=
  label.isHidden = false ∧ label.text = some text

/-- What a callback that ended has made of the screen.  A hidden label keeps its
old text, but shows none. -/
structure Updated (view view' : ClueView) (data : Fields) : Prop where
  clueNumber : view'.clueNumber = view.clueNumber
  passKeyField : view'.passKeyField = view.passKeyField
  answer : view'.answer = data.string "answer"
  answerText : ∀ text, view'.answerText.Shows text ↔
    data.bool "solved" = some true ∧
      ∃ key, data.string "key" = some key ∧ text = "The Key from this clue is " ++ key

theorem updated_of_getRiddle_ok {view view' : ClueView}
    {response : DocumentResponse} (h : getRiddle view response = .ok view') :
    ∃ data, response = .snapshot (some data) ∧ Updated view view' data := by
  obtain ⟨data, riddle, key, answer, solved, hresponse, hdata⟩ :=
    isRiddle_of_getRiddle_ok h
  rw [hresponse, getRiddle_ok hdata] at h
  cases h
  refine ⟨data, hresponse,
    { clueNumber := rfl
      passKeyField := rfl
      answer := hdata.answer.symm
      answerText := ?_ }⟩
  intro text
  unfold UILabel.Shows
  rw [hdata.solved, hdata.key]
  cases solved with
  | true => simp [eq_comm]
  | false => simp

theorem checkAnswer_right {view : ClueView} {number : String} {ref : DocumentKey}
    (hnumber : view.clueNumber = some number)
    (href : document "clues" number = .ok ref)
    (h : view.answer = some view.passKeyField) :
    checkAnswer view =
      .ok [ .write (.updateData ref "solved" (.bool true))
          , .showMessage showSuccess ] := by
  rw [checkAnswer, if_pos h.symm, hnumber]
  simp only [href]
  rfl

theorem checkAnswer_wrong {view : ClueView}
    (h : view.answer ≠ some view.passKeyField) :
    checkAnswer view = .ok [.showMessage tryAgainMessage] := by
  rw [checkAnswer, if_neg (Ne.symm h)]

/-- Everything a press can ask for. -/
theorem checkAnswer_cases {view : ClueView} {effects : List Effect}
    (h : checkAnswer view = .ok effects) :
    effects = [.showMessage tryAgainMessage] ∨ effects = [] ∨
      ∃ ref, effects = [ .write (.updateData ref "solved" (.bool true))
                       , .showMessage showSuccess ] := by
  unfold checkAnswer at h
  split at h
  · cases hnumber : view.clueNumber with
    | none =>
        rw [hnumber] at h
        cases h
        exact .inr (.inl rfl)
    | some number =>
        simp only [hnumber, bind_eq_ok_iff, pure_eq_ok, Except.ok.injEq] at h
        obtain ⟨ref, -, rfl⟩ := h
        exact .inr (.inr ⟨ref, rfl⟩)
  · cases h
    exact .inl rfl

end ValentinesDay.Ports.Riddle
