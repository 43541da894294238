import ValentinesDay.Ports.Lifecycle
import ValentinesDay.Verified.Fallible
import ValentinesDay.Verified.Run

/-!
# The persisted `last-path`

A scan writes the scanned string to `last-path` before anything looks at it,
and every later launch loads what it finds there.  `LastPathInv` ties the two
together: no version of the store has held a name that cannot be loaded, so no
block that is waiting in the global queue can fail.

## Main results

* `lastPath_loadable_iff` — the persisted `last-path` stays loadable, and no
  load fails, exactly in the runs whose scans are of loadable names.
-/

namespace ValentinesDay.Ports.LastPath

open ValentinesDay.Verified.Fallible
open ValentinesDay.Verified.Run
open ValentinesDay.Verified.Versions
open ValentinesDay.Ports.Runtime
open ValentinesDay.Ports.Firestore
open ValentinesDay.Ports.Persistence
open ValentinesDay.Ports.HomePage
open ValentinesDay.Ports.Riddle
open ValentinesDay.Ports.Lifecycle

/-! ## Loadable names -/

/-- `loadGeoJson` returns on this name: it skips `Clue10` and finds the file of
a bundled route. -/
def Loadable (name : String) : Prop := name = "Clue10" ∨ Bundled name

instance (name : String) : Decidable (Loadable name) := by
  unfold Loadable
  infer_instance

/-- Absent, not a string, or a loadable name. -/
def GoodLastPath (store : Store) : Prop :=
  ∀ name ∈ (lastPath store).bind Value.asString, Loadable name

def PreconditionFailed : Crash → Prop
  | .preconditionFailure _ => True
  | _ => False

theorem loadGeoJson_loadable (bundle : InstalledBundle) {name : String}
    (h : Loadable name) : ∃ jsonData, loadGeoJson bundle name = .ok jsonData := by
  rcases h with hclue | hbundled
  · subst hclue
    exact ⟨none, loadGeoJson_clue10 bundle⟩
  · obtain ⟨jsonData, -, hload⟩ := loadGeoJson_bundled bundle hbundled
    exact ⟨some jsonData, hload⟩

theorem not_preconditionFailed_drawPolyline {bundle : InstalledBundle}
    {geoJson identifier : String} {style : Option Style} {c : Crash}
    (h : drawPolyline bundle geoJson identifier style = .error c) :
    ¬PreconditionFailed c := by
  rcases drawPolyline_error h with ⟨-, rfl⟩ | ⟨hredundant, -⟩
  · exact not_false
  · cases c <;> first | exact not_false | exact False.elim hredundant

/-! ## The home page -/

/-- Every route waiting to be loaded can be; no load has failed. -/
def HomeSafe : Except Crash Home → Prop :=
  Ends (fun h => ∀ name ∈ h.globalQueue, Loadable name) (¬PreconditionFailed ·)

section Home

variable {bundle : InstalledBundle} {base : BaseStyle} {h : Home}

/-- A session that is asked for loadable names only fails no load. -/
theorem homeSafe_step (hqueue : ∀ name ∈ h.globalQueue, Loadable name)
    {e : HomeEvent} (hasks : ∀ name ∈ h.asks e, Loadable name) :
    HomeSafe (h.step bundle base e) := by
  have htransition := step_transition bundle base h e
  generalize h.step bundle base e = p at htransition ⊢
  cases htransition with
  | asked hstyle hglobal hmain hidle =>
      intro name hname
      rw [hglobal, List.mem_append] at hname
      exact hname.elim (hqueue name) (hasks name)
  | aborted href => exact not_false
  | loaded hblock hload =>
      intro name hname
      exact hqueue name (List.mem_of_mem_eraseIdx hname)
  | loadFailed hblock hload =>
      have hname := hqueue _ (List.mem_of_getElem? hblock)
      obtain ⟨jsonData, hok⟩ := loadGeoJson_loadable bundle hname
      rw [hok] at hload
      cases hload
  | drawn hmain hdraw => exact hqueue
  | drawFailed hmain hdraw => exact not_preconditionFailed_drawPolyline hdraw
  | styleLoaded hstyle => exact hqueue

/-- A scan asks for the string scanned, if it is a document path. -/
theorem loadable_asks_giveQRCodeValue {value : String}
    (hscan : ValidDocumentPath "clues" value → Loadable value) :
    ∀ name ∈ h.asks (.giveQRCodeValue value), Loadable name := by
  intro name hname
  cases href : document "clues" value with
  | error c => simp [Home.asks, giveQRCodeValue_error href] at hname
  | ok ref =>
      rw [asks_giveQRCodeValue h href] at hname
      split at hname
      · simp at hname
      · rw [List.mem_singleton.mp hname]
        exact hscan ⟨ref, href⟩

/-- The restored route is the `last-path` of the version that was read. -/
theorem loadable_asks_lastPathResponse {server : Server}
    (hversions : server.Always GoodLastPath) (version : Option Nat) :
    ∀ name ∈ h.asks (.lastPathResponse (server.response lastPathKey version)),
      Loadable name := by
  intro name hname
  by_cases hasked : h.lastPathRequested = true
  · simp only [Home.asks, hasked, if_true, Option.mem_toList] at hname
    cases version with
    | none => simp [Server.response, getLastPath] at hname
    | some version =>
        refine hversions.read version name ?_
        unfold Server.response at hname
        cases hdoc : (server.read version).lookup lastPathKey with
        | none => simp [hdoc, getLastPath] at hname
        | some data =>
            simpa [hdoc, getLastPath, lastPath, field, Fields.string] using hname
  · simp [Home.asks, hasked] at hname

end Home

/-! ## The riddle screens -/

/-- The computation has not ended in a failed load. -/
def Unfailed {α : Type} : Except Crash α → Prop :=
  Ends (fun _ => True) (¬PreconditionFailed ·)

theorem unfailed_ok {α : Type} (a : α) : Unfailed (.ok a : Except Crash α) := trivial

theorem Unfailed.bind {α β : Type} {p : Except Crash α} {f : α → Except Crash β}
    (hp : Unfailed p) (hf : ∀ a, Unfailed (f a)) : Unfailed (p >>= f) :=
  Ends.bind hp fun a _ => hf a

theorem unfailed_castString (data : Option Fields) (field : String) :
    Unfailed (castString data field) := by
  unfold castString
  split
  · exact unfailed_ok _
  · exact not_false

theorem unfailed_castBool (data : Option Fields) (field : String) :
    Unfailed (castBool data field) := by
  unfold castBool
  split
  · exact unfailed_ok _
  · exact not_false

theorem unfailed_document (collection path : String) :
    Unfailed (document collection path) := by
  cases h : document collection path with
  | ok ref => exact unfailed_ok ref
  | error c =>
      obtain ⟨message, rfl⟩ := document_error h
      exact not_false

theorem unfailed_getRiddle (view : ClueView) (response : DocumentResponse) :
    Unfailed (getRiddle view response) :=
  (unfailed_castString _ _).bind fun _ =>
    (unfailed_castBool _ _).bind fun _ =>
      (unfailed_castString _ _).bind fun _ =>
        (unfailed_castString _ _).bind fun _ => unfailed_ok _

theorem unfailed_checkAnswer (view : ClueView) : Unfailed (checkAnswer view) := by
  unfold checkAnswer
  split
  · cases view.clueNumber with
    | none => exact unfailed_ok _
    | some number => exact (unfailed_document _ _).bind fun _ => unfailed_ok _
  · exact unfailed_ok _

theorem unfailed_listenerRef (clueNumber : Option String) :
    Unfailed (listenerRef clueNumber) := by
  cases clueNumber with
  | none => exact unfailed_ok _
  | some number => exact (unfailed_document _ _).bind fun _ => unfailed_ok _

/-! ## The app -/

/-- The persisted `last-path` is good and no load has failed. -/
structure SafeApp (app : App) : Prop where
  lastPath : GoodLastPath app.server.current
  loads : Unfailed app.process

/-- The event is no scan of a live process, or one of a string that is no
document path or a loadable name. -/
def ScanOk (app : App) : AppEvent → Prop
  | .scan value =>
      app.process.isOk → ValidDocumentPath "clues" value → Loadable value
  | _ => True

/-- The routes a live process waits for can be loaded. -/
def ProcessSafe : Except Crash Session → Prop :=
  Ends (fun s => ∀ name ∈ s.home.globalQueue, Loadable name) (¬PreconditionFailed ·)

/-- Also the versions a relaunch may still be given are good. -/
structure LastPathInv (app : App) : Prop where
  versions : app.server.Always GoodLastPath
  process : ProcessSafe app.process

theorem processSafe_launched : ProcessSafe (.ok Session.launched) := by
  intro name hname
  simp [Session.launched, Home.launched] at hname

theorem lastPathInv_launched {store : Store} (h0 : GoodLastPath store) :
    LastPathInv (App.launched store) where
  versions := History.always_ofState h0
  process := processSafe_launched

theorem LastPathInv.safe {app : App} (h : LastPathInv app) : SafeApp app where
  lastPath := h.versions.current
  loads := by
    have hprocess := h.process
    cases hp : app.process with
    | ok s => exact unfailed_ok s
    | error c => exact Ends.of_error hprocess hp

section Step

variable {bundle : InstalledBundle} {base : BaseStyle} {app : App}

theorem goodLastPath_setData {store : Store} {name : String} (h : Loadable name) :
    GoodLastPath
      ((Write.setData lastPathKey [("last-path", .string name)]).apply store) := by
  intro name' hname
  rw [lastPath, field_setData_self] at hname
  simp only [List.lookup_cons_self, Option.bind_some, Value.asString,
    Option.mem_def, Option.some.injEq] at hname
  rw [← hname]
  exact h

theorem goodLastPath_updateData {store : Store} {ref : DocumentKey}
    (hname : "last-path" ≠ name) (value : Value) (h : GoodLastPath store) :
    GoodLastPath ((Write.updateData ref name value).apply store) := by
  unfold GoodLastPath lastPath
  rw [field_updateData_ne store (.inr hname)]
  exact h

theorem always_goodLastPath_write {server : Server} {ref : DocumentKey}
    {name : String} (hname : "last-path" ≠ name) (value : Value)
    (h : server.Always GoodLastPath) :
    (server.write (.updateData ref name value)).Always GoodLastPath :=
  h.push (goodLastPath_updateData hname value h.current)

theorem always_goodLastPath_scan {server : Server} {value : String}
    (h : server.Always GoodLastPath)
    (hscan : ValidDocumentPath "clues" value → Loadable value) :
    (server.performAll (giveQRCodeValue value)).Always GoodLastPath := by
  cases href : document "clues" value with
  | error c =>
      rw [giveQRCodeValue_error href]
      exact h
  | ok ref =>
      by_cases hclue : value = "Clue10"
      · rw [hclue, performAll_giveQRCodeValue_clue10]
        exact always_goodLastPath_write (by decide) _ h
      · rw [performAll_giveQRCodeValue hclue href]
        refine always_goodLastPath_write (by decide) _ ?_
        exact h.push (goodLastPath_setData (hscan ⟨ref, href⟩))

theorem always_goodLastPath_check {server : Server} (view : ClueView)
    (h : server.Always GoodLastPath) :
    (server.performAll (checkAnswer view)).Always GoodLastPath := by
  refine performAll_of_writes ?_ h
  intro effects hcheck w hw server hserver
  rcases checkAnswer_cases hcheck with rfl | rfl | ⟨ref, rfl⟩
  · simp at hw
  · simp at hw
  · simp only [List.mem_cons, Effect.write.injEq, reduceCtorEq, List.not_mem_nil,
      or_false] at hw
    rw [hw]
    exact always_goodLastPath_write (by decide) _ hserver

theorem always_goodLastPath_step (h : app.server.Always GoodLastPath)
    {e : AppEvent} (hscan : ScanOk app e) :
    (app.step bundle base e).server.Always GoodLastPath := by
  rcases effects_cases app e with
    hquiet | ⟨value, hlive, rfl, heffects⟩ | ⟨s, view, c, -, -, -, heffects⟩
  · rw [step_server_of_no_effects hquiet]
    exact h
  · rw [App.step, heffects]
    exact always_goodLastPath_scan h (hscan hlive)
  · rw [App.step, heffects]
    exact always_goodLastPath_check c.view h

/-- An event of the home page, with the riddle screens left alone. -/
theorem processSafe_onHome {s : Session} {e : HomeEvent}
    (h : HomeSafe (s.home.step bundle base e)) :
    ProcessSafe (s.onHome bundle base e) :=
  Ends.bind h fun _ hhome => hhome

theorem processSafe_unfailed {s : Session} {α : Type} {p : Except Crash α}
    {f : α → Session} (hs : ∀ name ∈ s.home.globalQueue, Loadable name)
    (hp : Unfailed p) (hf : ∀ a, (f a).home = s.home) :
    ProcessSafe (p >>= fun a => .ok (f a)) := by
  refine Ends.bind hp ?_
  intro a _ name hname
  rw [hf a] at hname
  exact hs name hname

theorem unfailed_deliver (server : Server) (version : Option Nat) (c : OpenClue) :
    Unfailed (c.deliver server version) := by
  unfold OpenClue.deliver
  cases c.listener with
  | none => exact unfailed_ok c
  | some ref => exact (unfailed_getRiddle _ _).bind fun _ => unfailed_ok _

theorem processSafe_step {server : Server} (hversions : server.Always GoodLastPath)
    {s : Session} (hs : ∀ name ∈ s.home.globalQueue, Loadable name) {e : AppEvent}
    (hscan : ∀ value, e = .scan value →
      ValidDocumentPath "clues" value → Loadable value) :
    ProcessSafe (s.step bundle base server e) := by
  cases e with
  | launch => exact processSafe_launched
  | scan value =>
      refine processSafe_onHome (homeSafe_step hs ?_)
      exact loadable_asks_giveQRCodeValue (hscan value rfl)
  | lastPathArrives version =>
      refine processSafe_onHome (homeSafe_step hs ?_)
      exact loadable_asks_lastPathResponse hversions version
  | runGlobal block => exact processSafe_onHome (homeSafe_step hs (by simp [Home.asks]))
  | runMain => exact processSafe_onHome (homeSafe_step hs (by simp [Home.asks]))
  | didFinishLoadingStyle =>
      exact processSafe_onHome (homeSafe_step hs (by simp [Home.asks]))
  | openClue clueNumber =>
      refine processSafe_unfailed hs ?_ fun _ => rfl
      exact (unfailed_listenerRef _).bind fun _ => unfailed_ok _
  | deliver view version =>
      simp only [Session.step]
      cases s.openClues[view]? with
      | none => exact hs
      | some c =>
          exact processSafe_unfailed hs (unfailed_deliver server version c)
            fun _ => rfl
  | edit view text =>
      simp only [Session.step]
      cases s.openClues[view]? <;> exact hs
  | checkAnswer view =>
      simp only [Session.step]
      cases s.openClues[view]? with
      | none => exact hs
      | some c =>
          exact processSafe_unfailed hs (unfailed_checkAnswer c.view) fun _ => rfl

/-- **Step lemma.**  Scans of loadable names keep the invariant. -/
theorem lastPathInv_step (e : AppEvent) (h : LastPathInv app) (hscan : ScanOk app e) :
    LastPathInv (app.step bundle base e) := by
  refine
    { versions := always_goodLastPath_step h.versions hscan
      process := ?_ }
  have hsafe := h.process
  change ProcessSafe (app.nextProcess bundle base e)
  cases hprocess : app.process with
  | error c =>
      rw [hprocess] at hsafe
      by_cases he : e = .launch
      · rw [he, nextProcess_launch]
        exact processSafe_launched
      · rw [nextProcess_error hprocess he]
        exact hsafe
  | ok s =>
      rw [hprocess] at hsafe
      rw [nextProcess_ok hprocess]
      refine processSafe_step h.versions hsafe ?_
      intro value hvalue
      subst hvalue
      exact hscan (by simp [hprocess, Except.isOk, Except.toBool])

/-- A scan that leaves `last-path` good was of a loadable name. -/
theorem scanOk_of_safe_step (e : AppEvent)
    (hsafe : SafeApp (app.step bundle base e)) : ScanOk app e := by
  cases e with
  | scan value =>
      intro hlive hvalid
      by_cases hclue : value = "Clue10"
      · exact .inl hclue
      · cases hprocess : app.process with
        | error c => simp [hprocess, Except.isOk, Except.toBool] at hlive
        | ok s =>
            obtain ⟨ref, href⟩ := hvalid
            have hgood := hsafe.lastPath
            simp only [App.step, App.effects, hprocess,
              performAll_giveQRCodeValue hclue href, Server.current_write] at hgood
            refine hgood value ?_
            rw [lastPath, field_updateData_ne _ (.inr (by decide)),
              field_setData_self]
            rfl
  | _ => trivial

end Step

/-- **When `last-path` can always be loaded.**  From a store whose `last-path`
is absent, no string, or loadable, a run of scans, relaunches and everything
else keeps it so, and never fails to load a route, exactly when every string
scanned is loadable or no document path at all. -/
theorem lastPath_loadable_iff (bundle : InstalledBundle) (base : BaseStyle)
    (store : Store) (h0 : GoodLastPath store) (es : List AppEvent) :
    Throughout (App.step bundle base) SafeApp (App.launched store) es ↔
      Along (App.step bundle base) ScanOk (App.launched store) es :=
  throughout_iff_along (fun _ h => h.safe)
    (fun _ e h hscan => lastPathInv_step e h hscan)
    (fun _ e _ hsafe => scanOk_of_safe_step e hsafe)
    (lastPathInv_launched h0) es

theorem goodLastPath_empty : GoodLastPath ∅ := by
  intro name hname
  cases hname

/-- Two places of the hunt, with relaunches. -/
def huntCodes : List AppEvent :=
  [ .scan "Clue1", .runGlobal 0, .launch, .lastPathArrives (some 2)
  , .scan "Clue10", .runGlobal 0, .launch ]

theorem lastPath_loadable_huntCodes :
    Throughout (App.step sampleBundle emptyStyle) SafeApp (App.launched ∅)
      huntCodes := by
  rw [lastPath_loadable_iff sampleBundle emptyStyle ∅ goodLastPath_empty]
  exact ⟨fun _ _ => by decide, trivial, trivial, trivial, fun _ _ => by decide,
    trivial, trivial, trivial⟩

/-- A code that is not of the hunt, then a relaunch. -/
def foreignCode : List AppEvent :=
  [ .scan "hello", .launch, .lastPathArrives (some 2), .runGlobal 0 ]

theorem foreignCode_breaks_lastPath :
    ¬∀ (bundle : InstalledBundle) (base : BaseStyle) (store : Store)
      (es : List AppEvent), GoodLastPath store →
      Throughout (App.step bundle base) SafeApp (App.launched store) es := by
  intro hclaim
  have hsafe := (hclaim sampleBundle emptyStyle ∅ foreignCode
    goodLastPath_empty).last
  have hcrash : (exec (App.step sampleBundle emptyStyle) (App.launched ∅)
      foreignCode).process =
      .error (.preconditionFailure "Failed to load local GeoJSON file") := rfl
  exact Ends.of_error hsafe.loads hcrash trivial

end ValentinesDay.Ports.LastPath
