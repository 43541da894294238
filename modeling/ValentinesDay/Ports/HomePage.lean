import ValentinesDay.Ports.Persistence
import ValentinesDay.Verified.Fallible

/-!
# The home page: scans, the restored route and the map style

The part of `HomePage` that writes the store and draws routes.  One session
owns two queues: the global queue, whose blocks run in any order, and the main
queue, which is served from its head.  `mapView.style` is nil until the style
has finished loading.

`giveQRCodeValue` is kept as the list of its effects in program order, so that
a screen that applies them and a store that applies them cannot disagree on
what a scan does.

## Main results

* `giveQRCodeValue_cases` — everything a scan can ask for.
* `step_transition` — everything an event can do to a session; the invariants
  of sessions are proved by cases on it.
-/

namespace ValentinesDay.Ports.HomePage

open ValentinesDay.Verified.Fallible
open ValentinesDay.Ports.Runtime
open ValentinesDay.Ports.Firestore
open ValentinesDay.Ports.Persistence

/-! ## `giveQRCodeValue` -/

/-- `HomePage.FoundAllMessage`; the argument is not used. -/
def foundAllMessage (_clue : String) : MessageContent where
  title := "Yay!"
  body := "You found all the clues!\n Put the keyphrases from each clue into the textbar\n to claim your prize!"
  iconText := some "🎉"
  buttonTitle := some "Ok"

/-- `HomePage.demoCentered`; the argument is not used. -/
def demoCentered (_clue : String) : MessageContent where
  title := "Yay!"
  body := "You found a clue!\n Solve it to find the next one"
  iconText := some "🕵️"
  buttonTitle := some "Ok"

/-- `HomePage.giveQRCodeValue`.  `document` aborts on a string that is no
document path, before anything is written. -/
def giveQRCodeValue (value : String) : Except Crash (List Effect) :=
  if value = "Clue10" then do
    let ref ← document "clues" value
    return [ .write (.updateData ref "Locked" (.bool false))
           , .showMessage (foundAllMessage value) ]
  else do
    let ref ← document "clues" value
    let lastpathref ← document "last-path" "Last"
    return [ .write (.setData lastpathref [("last-path", .string value)])
           , .write (.updateData ref "Locked" (.bool false))
           , .showMessage (demoCentered value)
           , .loadGeoJson value ]

theorem giveQRCodeValue_clue10 :
    giveQRCodeValue "Clue10" =
      .ok [ .write (.updateData (clueKey "Clue10") "Locked" (.bool false))
          , .showMessage (foundAllMessage "Clue10") ] := by
  have hid : IsDocumentID "Clue10" := ⟨by decide, by decide⟩
  rw [giveQRCodeValue, if_pos rfl, document_clues hid]
  rfl

theorem giveQRCodeValue_ok {value : String} {ref : DocumentKey}
    (hne : value ≠ "Clue10") (href : document "clues" value = .ok ref) :
    giveQRCodeValue value =
      .ok [ .write (.setData lastPathKey [("last-path", .string value)])
          , .write (.updateData ref "Locked" (.bool false))
          , .showMessage (demoCentered value)
          , .loadGeoJson value ] := by
  rw [giveQRCodeValue, if_neg hne, href, document_lastPath]
  rfl

theorem giveQRCodeValue_error {value : String} {c : Crash}
    (href : document "clues" value = .error c) :
    giveQRCodeValue value = .error c := by
  unfold giveQRCodeValue
  rw [href]
  split <;> rfl

/-- Everything a scan can ask for. -/
theorem giveQRCodeValue_cases {value : String} {effects : List Effect}
    (h : giveQRCodeValue value = .ok effects) :
    (value = "Clue10" ∧
      effects = [ .write (.updateData (clueKey "Clue10") "Locked" (.bool false))
                , .showMessage (foundAllMessage "Clue10") ]) ∨
    (value ≠ "Clue10" ∧ ∃ ref, document "clues" value = .ok ref ∧
      effects = [ .write (.setData lastPathKey [("last-path", .string value)])
                , .write (.updateData ref "Locked" (.bool false))
                , .showMessage (demoCentered value)
                , .loadGeoJson value ]) := by
  by_cases hclue : value = "Clue10"
  · left
    rw [hclue, giveQRCodeValue_clue10] at h
    cases h
    exact ⟨hclue, rfl⟩
  · right
    refine ⟨hclue, ?_⟩
    cases href : document "clues" value with
    | error c =>
        rw [giveQRCodeValue_error href] at h
        cases h
    | ok ref =>
        rw [giveQRCodeValue_ok hclue href] at h
        cases h
        exact ⟨ref, rfl, rfl⟩

/-! ## Reading `last-path` back -/

/-- The callback of `getLastPath`: the name it passes to `loadGeoJson`. -/
def getLastPath : DocumentResponse → Option String
  | .error => none
  | .snapshot none => none
  | .snapshot (some data) => data.string "last-path"

/-- The callback of `doneIntro`: whether it presents `SwipeThroughPage`. -/
def doneIntro (response : DocumentResponse) : Except Crash Bool := do
  let done ← castBool response.data "done"
  return done = false

/-! ## `loadGeoJson` and `drawPolyline` -/

/-- The background block of `loadGeoJson`: the data it hands to the main
queue. -/
def loadGeoJson (bundle : InstalledBundle) (cluenumber : String) :
    Except Crash (Option String) :=
  if cluenumber = "Clue10" then .ok none
  else
    match bundleURL cluenumber "geojson" with
    | none => .error (.preconditionFailure "Failed to load local GeoJSON file")
    | some jsonUrl =>
        match bundle.contents jsonUrl with
        | none => .error (.preconditionFailure "Failed to parse GeoJSON file")
        | some jsonData => .ok (some jsonData)

@[simp] theorem loadGeoJson_clue10 (bundle : InstalledBundle) :
    loadGeoJson bundle "Clue10" = .ok none := rfl

theorem loadGeoJson_bundled (bundle : InstalledBundle) {cluenumber : String}
    (h : Bundled cluenumber) :
    ∃ jsonData, bundle.contents (cluenumber ++ "." ++ "geojson") = some jsonData ∧
      loadGeoJson bundle cluenumber = .ok (some jsonData) := by
  have hne : cluenumber ≠ "Clue10" := by
    rintro rfl
    exact not_bundled_clue10 h
  obtain ⟨jsonData, hdata⟩ := Option.isSome_iff_exists.mp (bundle.readable _ h)
  refine ⟨jsonData, hdata, ?_⟩
  simp [loadGeoJson, hne, bundleURL_of_bundled h, hdata]

/-- A block that returns has skipped `Clue10` or read the file of a bundled
route. -/
theorem loadGeoJson_ok {bundle : InstalledBundle} {cluenumber : String}
    {jsonData : Option String} (h : loadGeoJson bundle cluenumber = .ok jsonData) :
    (cluenumber = "Clue10" ∧ jsonData = none) ∨
    (Bundled cluenumber ∧ ∃ data, jsonData = some data ∧
      bundle.contents (cluenumber ++ "." ++ "geojson") = some data) := by
  by_cases hclue : cluenumber = "Clue10"
  · rw [hclue, loadGeoJson_clue10] at h
    cases h
    exact .inl ⟨hclue, rfl⟩
  · right
    by_cases hbundled : Bundled cluenumber
    · obtain ⟨data, hdata, hload⟩ := loadGeoJson_bundled bundle hbundled
      rw [hload] at h
      cases h
      exact ⟨hbundled, data, rfl, hdata⟩
    · simp [loadGeoJson, hclue, bundleURL_of_not_bundled hbundled] at h

theorem loadGeoJson_error {bundle : InstalledBundle} {cluenumber : String} {c : Crash}
    (h : loadGeoJson bundle cluenumber = .error c) :
    ∃ message, c = .preconditionFailure message := by
  unfold loadGeoJson at h
  split at h
  · cases h
  · split at h
    · cases h
      exact ⟨_, rfl⟩
    · split at h
      · cases h
        exact ⟨_, rfl⟩
      · cases h

/-- Identifiers of the sources and of the layers of the current style. -/
structure Style where
  sources : List String
  layers : List String
  deriving DecidableEq, Repr

/-- `-[MGLStyle addSource:]`. -/
def Style.addSource (style : Style) (identifier : String) : Except Crash Style :=
  if identifier ∈ style.sources then
    .error (.redundantSourceIdentifier identifier)
  else .ok { style with sources := style.sources ++ [identifier] }

/-- `-[MGLStyle addLayer:]`. -/
def Style.addLayer (style : Style) (identifier : String) : Except Crash Style :=
  if identifier ∈ style.layers then
    .error (.redundantLayerIdentifier identifier)
  else .ok { style with layers := style.layers ++ [identifier] }

/-- `HomePage.drawPolyline`; `none` is `mapView?.style` while it is loading. -/
def drawPolyline (bundle : InstalledBundle) (geoJson identifier : String) :
    Option Style → Except Crash (Option Style)
  | none => .ok none
  | some style =>
      if bundle.parses geoJson then do
        let withSource ← style.addSource identifier
        let withLayer ← withSource.addLayer identifier
        return some withLayer
      else .error (.fatalError "Could not generate MGLShape")

@[simp] theorem Style.addSource_eq_ok {style style' : Style} {identifier : String} :
    style.addSource identifier = .ok style' ↔ identifier ∉ style.sources ∧
      { style with sources := style.sources ++ [identifier] } = style' := by
  unfold Style.addSource
  split <;> simp_all

@[simp] theorem Style.addSource_eq_error {style : Style} {identifier : String}
    {c : Crash} : style.addSource identifier = .error c ↔
      identifier ∈ style.sources ∧ .redundantSourceIdentifier identifier = c := by
  unfold Style.addSource
  split <;> simp_all

@[simp] theorem Style.addLayer_eq_ok {style style' : Style} {identifier : String} :
    style.addLayer identifier = .ok style' ↔ identifier ∉ style.layers ∧
      { style with layers := style.layers ++ [identifier] } = style' := by
  unfold Style.addLayer
  split <;> simp_all

@[simp] theorem Style.addLayer_eq_error {style : Style} {identifier : String}
    {c : Crash} : style.addLayer identifier = .error c ↔
      identifier ∈ style.layers ∧ .redundantLayerIdentifier identifier = c := by
  unfold Style.addLayer
  split <;> simp_all

/-- A style that accepts a route has its source and its layer from then on, and
had neither before. -/
theorem drawPolyline_ok {bundle : InstalledBundle} {geoJson identifier : String}
    {style : Style} {style' : Option Style}
    (h : drawPolyline bundle geoJson identifier (some style) = .ok style') :
    identifier ∉ style.sources ∧ identifier ∉ style.layers ∧
      style' = some ⟨style.sources ++ [identifier], style.layers ++ [identifier]⟩ := by
  by_cases hparse : bundle.parses geoJson = true
  · simp only [drawPolyline, hparse, if_true, bind_eq_ok_iff,
      Style.addSource_eq_ok, Style.addLayer_eq_ok] at h
    obtain ⟨_, ⟨hsource, rfl⟩, _, ⟨hlayer, rfl⟩, hstyle⟩ := h
    cases hstyle
    exact ⟨hsource, hlayer, rfl⟩
  · simp [drawPolyline, hparse] at h

/-- `drawPolyline` fails on a text that is no shape, or on an identifier the
style already has. -/
theorem drawPolyline_error {bundle : InstalledBundle} {geoJson identifier : String}
    {style : Option Style} {c : Crash}
    (h : drawPolyline bundle geoJson identifier style = .error c) :
    (bundle.parses geoJson = false ∧ c = .fatalError "Could not generate MGLShape") ∨
    (c.Redundant ∧ ∃ st, style = some st ∧
      (identifier ∈ st.sources ∨ identifier ∈ st.layers)) := by
  cases style with
  | none => cases h
  | some st =>
      by_cases hparse : bundle.parses geoJson = true
      · right
        simp only [drawPolyline, hparse, if_true, bind_eq_error_iff,
          Style.addSource_eq_ok, Style.addSource_eq_error,
          Style.addLayer_eq_error] at h
        rcases h with ⟨hsource, rfl⟩ |
          ⟨_, ⟨-, rfl⟩, ⟨hlayer, rfl⟩ | ⟨_, -, hnever⟩⟩
        · exact ⟨trivial, st, rfl, .inl hsource⟩
        · exact ⟨trivial, st, rfl, .inr hlayer⟩
        · cases hnever
      · left
        simp only [drawPolyline, hparse] at h
        cases h
        exact ⟨by simpa using hparse, rfl⟩

/-! ## One session of the page -/

/-- The style the map view loads.  Its own identifiers are not names of
bundled routes. -/
structure BaseStyle extends Style where
  sources_not_bundled : ∀ id ∈ sources, ¬Bundled id
  layers_not_bundled : ∀ id ∈ layers, ¬Bundled id

/-- A style without sources and layers of its own. -/
def emptyStyle : BaseStyle where
  sources := []
  layers := []
  sources_not_bundled _ h := by simp at h
  layers_not_bundled _ h := by simp at h

/-- The session's state after `viewDidLoad`, as far as routes go. -/
structure Home where
  qrCodeValue : Option String
  style : Option Style
  /-- `getLastPath` is waiting for its response. -/
  lastPathRequested : Bool
  /-- Pending blocks of `loadGeoJson`, by the name they captured. -/
  globalQueue : List String
  /-- Pending `drawPolyline` blocks: data and identifier. -/
  mainQueue : List (String × String)
  deriving DecidableEq, Repr

/-- `viewDidLoad` has run: the style is loading and `last-path` is requested. -/
def Home.launched : Home where
  qrCodeValue := none
  style := none
  lastPathRequested := true
  globalQueue := []
  mainQueue := []

/-- Responses, scans, queued blocks and the style, in any order. -/
inductive HomeEvent where
  | lastPathResponse (response : DocumentResponse)
  | giveQRCodeValue (value : String)
  | runGlobal (block : Nat)
  | runMain
  | didFinishLoadingStyle

/-- `DispatchQueue.global().async` of a route. -/
def Home.enqueue (h : Home) (cluenumber : String) : Home :=
  { h with globalQueue := h.globalQueue ++ [cluenumber] }

/-- The page's part of an effect; writes and messages leave it as it is. -/
def Home.perform (h : Home) : Effect → Home
  | .write _ => h
  | .showMessage _ => h
  | .loadGeoJson cluenumber => h.enqueue cluenumber

/-- A background block is taken off the global queue and run. -/
def Home.runGlobal (bundle : InstalledBundle) (h : Home) (block : Nat) :
    Except Crash Home :=
  match h.globalQueue[block]? with
  | none => .ok h
  | some cluenumber => do
      let jsonData ← loadGeoJson bundle cluenumber
      return { h with
        globalQueue := h.globalQueue.eraseIdx block
        mainQueue := h.mainQueue ++ (jsonData.map (·, cluenumber)).toList }

/-- The head of the main queue is run. -/
def Home.runMain (bundle : InstalledBundle) (h : Home) : Except Crash Home :=
  match h.mainQueue with
  | [] => .ok h
  | (geoJson, identifier) :: rest => do
      let style ← drawPolyline bundle geoJson identifier h.style
      return { h with style := style, mainQueue := rest }

/-- One event of a session; an event the state does not offer is a no-op. -/
def Home.step (bundle : InstalledBundle) (base : BaseStyle) (h : Home) :
    HomeEvent → Except Crash Home
  | .lastPathResponse response =>
      if h.lastPathRequested then
        let answered := { h with lastPathRequested := false }
        match getLastPath response with
        | none => .ok answered
        | some last => .ok (answered.enqueue last)
      else .ok h
  | .giveQRCodeValue value => do
      let effects ← giveQRCodeValue value
      return effects.foldl Home.perform { h with qrCodeValue := some value }
  | .runGlobal block => h.runGlobal bundle block
  | .runMain => h.runMain bundle
  | .didFinishLoadingStyle =>
      match h.style with
      | none => .ok { h with style := some base.toStyle }
      | some _ => .ok h

/-! ## What each event does -/

def effectLoads : Effect → List String
  | .loadGeoJson cluenumber => [cluenumber]
  | .write _ => []
  | .showMessage _ => []

/-- The names an event passes to `loadGeoJson`. -/
def Home.asks (h : Home) : HomeEvent → List String
  | .lastPathResponse response =>
      if h.lastPathRequested then (getLastPath response).toList else []
  | .giveQRCodeValue value =>
      match giveQRCodeValue value with
      | .ok effects => effects.flatMap effectLoads
      | .error _ => []
  | _ => []

/-- Everything an event can do to a session, as far as routes go. -/
inductive Home.Transition (bundle : InstalledBundle) (base : BaseStyle) (h : Home) :
    HomeEvent → Except Crash Home → Prop where
  /-- The names asked for, if any, join the global queue. -/
  | asked {e : HomeEvent} {h' : Home} (hstyle : h'.style = h.style)
      (hglobal : h'.globalQueue = h.globalQueue ++ h.asks e)
      (hmain : h'.mainQueue = h.mainQueue)
      (hidle : e = .runMain → h.mainQueue = []) : Transition bundle base h e (.ok h')
  | aborted {value message : String}
      (href : document "clues" value = .error (.hardAssert message)) :
      Transition bundle base h (.giveQRCodeValue value) (.error (.hardAssert message))
  | loaded {block : Nat} {cluenumber : String} {jsonData : Option String}
      (hblock : h.globalQueue[block]? = some cluenumber)
      (hload : loadGeoJson bundle cluenumber = .ok jsonData) :
      Transition bundle base h (.runGlobal block)
        (.ok { h with
          globalQueue := h.globalQueue.eraseIdx block
          mainQueue := h.mainQueue ++ (jsonData.map (·, cluenumber)).toList })
  | loadFailed {block : Nat} {cluenumber : String} {c : Crash}
      (hblock : h.globalQueue[block]? = some cluenumber)
      (hload : loadGeoJson bundle cluenumber = .error c) :
      Transition bundle base h (.runGlobal block) (.error c)
  | drawn {geoJson identifier : String} {rest : List (String × String)}
      {style : Option Style} (hmain : h.mainQueue = (geoJson, identifier) :: rest)
      (hdraw : drawPolyline bundle geoJson identifier h.style = .ok style) :
      Transition bundle base h .runMain
        (.ok { h with style := style, mainQueue := rest })
  | drawFailed {geoJson identifier : String} {rest : List (String × String)}
      {c : Crash} (hmain : h.mainQueue = (geoJson, identifier) :: rest)
      (hdraw : drawPolyline bundle geoJson identifier h.style = .error c) :
      Transition bundle base h .runMain (.error c)
  | styleLoaded (hstyle : h.style = none) :
      Transition bundle base h .didFinishLoadingStyle
        (.ok { h with style := some base.toStyle })

section Step

variable (bundle : InstalledBundle) (base : BaseStyle) (h : Home)

/-- A scan of a document path asks for its route, except for `Clue10`. -/
theorem asks_giveQRCodeValue {value : String} {ref : DocumentKey}
    (href : document "clues" value = .ok ref) :
    h.asks (.giveQRCodeValue value) = if value = "Clue10" then [] else [value] := by
  by_cases hclue : value = "Clue10"
  · subst hclue
    simp only [Home.asks, giveQRCodeValue_clue10]
    rfl
  · simp only [Home.asks, giveQRCodeValue_ok hclue href, if_neg hclue]
    rfl

theorem transition_lastPathResponse (response : DocumentResponse) :
    Home.Transition bundle base h (.lastPathResponse response)
      (h.step bundle base (.lastPathResponse response)) := by
  by_cases hasked : h.lastPathRequested = true
  · cases hlast : getLastPath response with
    | none =>
        simp only [Home.step, hasked, if_true, hlast]
        exact .asked rfl (by simp [Home.asks, hasked, hlast]) rfl (by simp)
    | some last =>
        simp only [Home.step, hasked, if_true, hlast]
        exact .asked rfl (by simp [Home.asks, Home.enqueue, hasked, hlast]) rfl (by simp)
  · simp only [Home.step, hasked]
    exact .asked rfl (by simp [Home.asks, hasked]) rfl (by simp)

theorem transition_giveQRCodeValue (value : String) :
    Home.Transition bundle base h (.giveQRCodeValue value)
      (h.step bundle base (.giveQRCodeValue value)) := by
  cases href : document "clues" value with
  | error c =>
      obtain ⟨message, rfl⟩ := document_error href
      simp only [Home.step, giveQRCodeValue_error href]
      exact .aborted href
  | ok ref =>
      have hasks := asks_giveQRCodeValue h href
      by_cases hclue : value = "Clue10"
      · subst hclue
        simp only [Home.step, giveQRCodeValue_clue10]
        rw [if_pos rfl] at hasks
        exact .asked rfl (by rw [hasks, List.append_nil]; rfl) rfl (by simp)
      · simp only [Home.step, giveQRCodeValue_ok hclue href]
        rw [if_neg hclue] at hasks
        exact .asked rfl (by rw [hasks]; rfl) rfl (by simp)

theorem transition_runGlobal (block : Nat) :
    Home.Transition bundle base h (.runGlobal block)
      (h.step bundle base (.runGlobal block)) := by
  cases hblock : h.globalQueue[block]? with
  | none =>
      simp only [Home.step, Home.runGlobal, hblock]
      exact .asked rfl (List.append_nil _).symm rfl (by simp)
  | some cluenumber =>
      cases hload : loadGeoJson bundle cluenumber with
      | error c =>
          simp only [Home.step, Home.runGlobal, hblock, hload]
          exact .loadFailed hblock hload
      | ok jsonData =>
          simp only [Home.step, Home.runGlobal, hblock, hload]
          exact .loaded hblock hload

theorem transition_runMain :
    Home.Transition bundle base h .runMain (h.step bundle base .runMain) := by
  cases hmain : h.mainQueue with
  | nil =>
      simp only [Home.step, Home.runMain, hmain]
      exact .asked rfl (List.append_nil _).symm rfl (fun _ => hmain)
  | cons block rest =>
      obtain ⟨geoJson, identifier⟩ := block
      cases hdraw : drawPolyline bundle geoJson identifier h.style with
      | error c =>
          simp only [Home.step, Home.runMain, hmain, hdraw]
          exact .drawFailed hmain hdraw
      | ok style =>
          simp only [Home.step, Home.runMain, hmain, hdraw]
          exact .drawn hmain hdraw

/-- **Inversion.**  A step of a session is one of the transitions. -/
theorem step_transition (e : HomeEvent) :
    Home.Transition bundle base h e (h.step bundle base e) := by
  cases e with
  | lastPathResponse response => exact transition_lastPathResponse bundle base h response
  | giveQRCodeValue value => exact transition_giveQRCodeValue bundle base h value
  | runGlobal block => exact transition_runGlobal bundle base h block
  | runMain => exact transition_runMain bundle base h
  | didFinishLoadingStyle =>
      cases hstyle : h.style with
      | none =>
          simp only [Home.step, hstyle]
          exact .styleLoaded hstyle
      | some style =>
          simp only [Home.step, hstyle]
          exact .asked rfl (List.append_nil _).symm rfl (by simp)

end Step

end ValentinesDay.Ports.HomePage
