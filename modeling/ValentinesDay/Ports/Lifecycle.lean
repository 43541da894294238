import ValentinesDay.Ports.Riddle
import ValentinesDay.Ports.HomePage

/-!
# The app against its store

One device: the server with all versions of the store, and the process with
the home page and the riddle screens opened in it.  A crash leaves the store as
it is and the process dead until the next launch, which starts a new session.

Every event writes what `App.effects` says and nothing else, so what the store
becomes over a run is read off the effects alone.
-/

namespace ValentinesDay.Ports.Lifecycle

open ValentinesDay.Verified.Versions
open ValentinesDay.Ports.Runtime
open ValentinesDay.Ports.Firestore
open ValentinesDay.Ports.Persistence
open ValentinesDay.Ports.HomePage
open ValentinesDay.Ports.Riddle

/-- A presented `ClueView` with the document it listens to. -/
structure OpenClue where
  view : ClueView
  listener : Option DocumentKey
  /-- History: the last snapshot its listener was given. -/
  delivered : Option Fields

/-- The home page and the riddle screens opened from it. -/
structure Session where
  home : Home
  openClues : List OpenClue

/-- A session with the home page only. -/
def Session.launched : Session where
  home := Home.launched
  openClues := []

/-- The store outlives the process. -/
structure App where
  server : Server
  process : Except Crash Session

/-- The app on a given store. -/
def App.launched (store : Store) : App where
  server := History.ofState store
  process := .ok Session.launched

/-- Everything the player, the network and the queues can do. -/
inductive AppEvent where
  | launch
  | scan (value : String)
  | lastPathArrives (version : Option Nat)
  | runGlobal (block : Nat)
  | runMain
  | didFinishLoadingStyle
  | openClue (clueNumber : Option String)
  | deliver (view : Nat) (version : Option Nat)
  | edit (view : Nat) (text : String)
  | checkAnswer (view : Nat)
  deriving DecidableEq, Repr

/-! ## The process -/

/-- `ClueView.viewDidLoad` of a new screen. -/
def OpenClue.present (clueNumber : Option String) : Except Crash OpenClue := do
  let listener ← listenerRef clueNumber
  return { view := ClueView.init clueNumber, listener := listener, delivered := none }

/-- The listener is called with some version of its document. -/
def OpenClue.deliver (server : Server) (version : Option Nat) (c : OpenClue) :
    Except Crash OpenClue :=
  match c.listener with
  | none => .ok c
  | some ref => do
      let response := server.response ref version
      let view ← getRiddle c.view response
      return { c with view := view, delivered := response.data }

/-- The player types into the answer field. -/
def OpenClue.edit (text : String) (c : OpenClue) : OpenClue :=
  { c with view := { c.view with passKeyField := text } }

/-- An event of the home page. -/
def Session.onHome (bundle : InstalledBundle) (base : BaseStyle) (s : Session)
    (e : HomeEvent) : Except Crash Session := do
  let home ← s.home.step bundle base e
  return { s with home := home }

/-- One event of a live process; an event the session does not offer is a
no-op. -/
def Session.step (bundle : InstalledBundle) (base : BaseStyle) (server : Server)
    (s : Session) : AppEvent → Except Crash Session
  | .launch => .ok Session.launched
  | .scan value => s.onHome bundle base (.giveQRCodeValue value)
  | .lastPathArrives version =>
      s.onHome bundle base (.lastPathResponse (server.response lastPathKey version))
  | .runGlobal block => s.onHome bundle base (.runGlobal block)
  | .runMain => s.onHome bundle base .runMain
  | .didFinishLoadingStyle => s.onHome bundle base .didFinishLoadingStyle
  | .openClue clueNumber => do
      let c ← OpenClue.present clueNumber
      return { s with openClues := s.openClues ++ [c] }
  | .deliver view version =>
      match s.openClues[view]? with
      | none => .ok s
      | some c => do
          let c' ← c.deliver server version
          return { s with openClues := s.openClues.set view c' }
  | .edit view text =>
      match s.openClues[view]? with
      | none => .ok s
      | some c => .ok { s with openClues := s.openClues.set view (c.edit text) }
  | .checkAnswer view =>
      match s.openClues[view]? with
      | none => .ok s
      | some c => do
          let _ ← checkAnswer c.view
          return s

/-- A launch replaces whatever process there is; nothing else revives one. -/
def App.nextProcess (bundle : InstalledBundle) (base : BaseStyle) (app : App)
    (e : AppEvent) : Except Crash Session :=
  match app.process, e with
  | .error _, .launch => .ok Session.launched
  | .error c, _ => .error c
  | .ok s, e => s.step bundle base app.server e

/-! ## The store -/

/-- What the event asks for beyond its own screen. -/
def App.effects (app : App) (e : AppEvent) : Except Crash (List Effect) :=
  match app.process, e with
  | .ok _, .scan value => giveQRCodeValue value
  | .ok s, .checkAnswer view =>
      match s.openClues[view]? with
      | none => .ok []
      | some c => checkAnswer c.view
  | _, _ => .ok []

/-- One event of the app. -/
def App.step (bundle : InstalledBundle) (base : BaseStyle) (app : App)
    (e : AppEvent) : App where
  server := app.server.performAll (app.effects e)
  process := app.nextProcess bundle base e

section Step

variable {bundle : InstalledBundle} {base : BaseStyle} {app : App}

theorem nextProcess_launch :
    app.nextProcess bundle base .launch = .ok Session.launched := by
  unfold App.nextProcess
  cases app.process <;> rfl

theorem nextProcess_ok {s : Session} (h : app.process = .ok s) (e : AppEvent) :
    app.nextProcess bundle base e = s.step bundle base app.server e := by
  simp only [App.nextProcess, h]

theorem nextProcess_error {c : Crash} (h : app.process = .error c) {e : AppEvent}
    (he : e ≠ .launch) : app.nextProcess bundle base e = .error c := by
  unfold App.nextProcess
  rw [h]
  cases e <;> first | rfl | exact absurd rfl he

/-- Only a scan and a check have effects. -/
theorem step_server_of_no_effects {e : AppEvent} (h : app.effects e = .ok []) :
    (app.step bundle base e).server = app.server := by
  simp only [App.step, h, Server.performAll, List.foldl_nil]

end Step

/-! ## Writes of one event -/

/-- The store after a scan of a name other than `Clue10`. -/
theorem performAll_giveQRCodeValue {server : Server} {value : String}
    {ref : DocumentKey} (hne : value ≠ "Clue10")
    (href : document "clues" value = .ok ref) :
    server.performAll (giveQRCodeValue value) =
      (server.write (.setData lastPathKey [("last-path", .string value)])).write
        (.updateData ref "Locked" (.bool false)) := by
  rw [giveQRCodeValue_ok hne href]
  rfl

theorem performAll_giveQRCodeValue_clue10 (server : Server) :
    server.performAll (giveQRCodeValue "Clue10") =
      server.write (.updateData (clueKey "Clue10") "Locked" (.bool false)) := by
  rw [giveQRCodeValue_clue10]
  rfl

/-- The store after a press: one write if the answer is right. -/
theorem performAll_checkAnswer {server : Server} {view : ClueView}
    {number : String} {ref : DocumentKey} (hnumber : view.clueNumber = some number)
    (href : document "clues" number = .ok ref) :
    server.performAll (checkAnswer view) =
      if view.answer = some view.passKeyField then
        server.write (.updateData ref "solved" (.bool true))
      else server := by
  by_cases h : view.answer = some view.passKeyField
  · rw [checkAnswer_right hnumber href h, if_pos h]
    rfl
  · rw [checkAnswer_wrong h, if_neg h]
    rfl

/-- The event asks for nothing beyond its screen, or it is a scan, or a press on
an open riddle. -/
theorem effects_cases (app : App) (e : AppEvent) :
    app.effects e = .ok [] ∨
      (∃ value, app.process.isOk ∧ e = .scan value ∧
        app.effects e = giveQRCodeValue value) ∨
      ∃ s view c, app.process = .ok s ∧ e = .checkAnswer view ∧
        s.openClues[view]? = some c ∧ app.effects e = checkAnswer c.view := by
  cases hprocess : app.process with
  | error c => exact .inl (by simp only [App.effects, hprocess])
  | ok s =>
      cases e with
      | scan value =>
          refine .inr (.inl ⟨value, rfl, rfl, ?_⟩)
          simp only [App.effects, hprocess]
      | checkAnswer view =>
          cases hview : s.openClues[view]? with
          | none => exact .inl (by simp only [App.effects, hprocess, hview])
          | some c =>
              refine .inr (.inr ⟨s, view, c, rfl, rfl, hview, ?_⟩)
              simp only [App.effects, hprocess, hview]
      | _ => exact .inl (by simp only [App.effects, hprocess])

end ValentinesDay.Ports.Lifecycle
