import ValentinesDay.Ports.HomePage
import ValentinesDay.Verified.Fallible
import ValentinesDay.Verified.Pending
import ValentinesDay.Verified.Run

/-!
# Routes asked for, routes drawn

Every route a session asks for (by the restore of `last-path` or by a scan) is
at any moment in exactly one of four places: a block of the global queue, a
block of the main queue, the style, or lost to a `drawPolyline` that found no
style.  `Accounted` states this by counting names; it is the one invariant
behind both results of the module.

## Main results

* `no_route_added_twice` — when the style gets a route twice.
* `routes_drawn_iff` — when the finished style holds the routes asked for.
-/

namespace ValentinesDay.Ports.RouteDrawing

open ValentinesDay.Verified.Fallible
open ValentinesDay.Verified.Run
open ValentinesDay.Verified.Pending
open ValentinesDay.Ports.Runtime
open ValentinesDay.Ports.Firestore
open ValentinesDay.Ports.HomePage

/-! ## What a session asks for and what it loses -/

/-- The route a call of `loadGeoJson` asks for; `Clue10` has none. -/
def route (cluenumber : String) : List String :=
  if cluenumber = "Clue10" then [] else [cluenumber]

/-- What a session asks for and what it fails to draw. -/
inductive RouteMark where
  | requested (name : String)
  | undrawn (name : String)
  deriving DecidableEq, Repr

/-- The route of a `drawPolyline` block that runs while there is no style. -/
def loses (h : Home) : HomeEvent → List String
  | .runMain =>
      match h.mainQueue, h.style with
      | (_, identifier) :: _, none => [identifier]
      | _, _ => []
  | _ => []

/-- Routes an event asks for, and the route it loses. -/
def routeMarks : Except Crash Home → HomeEvent → List RouteMark
  | .ok h, e =>
      ((h.asks e).flatMap route).map .requested ++ (loses h e).map .undrawn
  | .error _, _ => []

/-- The routes asked for. -/
def requested (marks : List RouteMark) : List String :=
  marks.filterMap fun mark =>
    match mark with
    | .requested name => some name
    | .undrawn _ => none

/-- The routes lost. -/
def undrawn (marks : List RouteMark) : List String :=
  marks.filterMap fun mark =>
    match mark with
    | .requested _ => none
    | .undrawn name => some name

@[simp] theorem requested_append (xs ys : List RouteMark) :
    requested (xs ++ ys) = requested xs ++ requested ys :=
  List.filterMap_append

@[simp] theorem undrawn_append (xs ys : List RouteMark) :
    undrawn (xs ++ ys) = undrawn xs ++ undrawn ys :=
  List.filterMap_append

@[simp] theorem requested_routeMarks (h : Home) (e : HomeEvent) :
    requested (routeMarks (.ok h) e) = (h.asks e).flatMap route := by
  simp [routeMarks, requested, List.filterMap_map]

@[simp] theorem undrawn_routeMarks (h : Home) (e : HomeEvent) :
    undrawn (routeMarks (.ok h) e) = loses h e := by
  simp [routeMarks, undrawn, List.filterMap_map]

@[simp] theorem routeMarks_error (c : Crash) (e : HomeEvent) :
    routeMarks (.error c) e = [] := rfl

theorem count_route {cluenumber name : String} (h : name ≠ "Clue10") :
    (route cluenumber).count name = if cluenumber = name then 1 else 0 := by
  by_cases hclue : cluenumber = "Clue10"
  · have hne : cluenumber ≠ name := fun heq => h (heq ▸ hclue)
    simp [route, hclue, hclue ▸ hne]
  · simp [route, hclue, List.count_singleton]

/-- Except for `Clue10`, a name asked for is a route asked for. -/
theorem count_flatMap_route {name : String} (h : name ≠ "Clue10")
    (names : List String) : (names.flatMap route).count name = names.count name := by
  induction names with
  | nil => rfl
  | cons cluenumber names ih =>
      rw [List.flatMap_cons, List.count_append, ih, count_route h, List.count_cons]
      simp only [beq_iff_eq]
      omega

/-! ## The accounting invariant -/

/-- `drawn` are the routes in the style; every request is there, lost, or
still in one of the queues. -/
structure Accounted (base : BaseStyle) (h : Home) (marks : List RouteMark)
    (drawn : List String) : Prop where
  loading : h.style = none → drawn = []
  sources : ∀ style, h.style = some style → style.sources = base.sources ++ drawn
  layers : ∀ style, h.style = some style → style.layers = base.layers ++ drawn
  nodup : drawn.Nodup
  bundled : ∀ name ∈ drawn, Bundled name
  lost : ∀ name ∈ undrawn marks, Bundled name
  drawable : ∀ block ∈ h.mainQueue, Bundled block.2
  count : ∀ name, name ≠ "Clue10" →
    (requested marks).count name =
      drawn.count name + (undrawn marks).count name +
        h.globalQueue.count name + (h.mainQueue.map Prod.snd).count name

theorem accounted_launched (base : BaseStyle) :
    Accounted base Home.launched [] [] where
  loading _ := rfl
  sources _ h := by simp [Home.launched] at h
  layers _ h := by simp [Home.launched] at h
  nodup := List.nodup_nil
  bundled _ h := by simp at h
  lost _ h := by simp [undrawn] at h
  drawable _ h := by simp [Home.launched] at h
  count _ _ := rfl

section Step

variable {bundle : InstalledBundle} {base : BaseStyle} {h : Home}
  {marks : List RouteMark} {drawn : List String}

/-- The names asked for are requests and blocks of the global queue. -/
theorem Accounted.ask (ha : Accounted base h marks drawn) {h' : Home}
    {e : HomeEvent} (hstyle : h'.style = h.style)
    (hglobal : h'.globalQueue = h.globalQueue ++ h.asks e)
    (hmain : h'.mainQueue = h.mainQueue) (hidle : loses h e = []) :
    Accounted base h' (marks ++ routeMarks (.ok h) e) drawn where
  loading := hstyle ▸ ha.loading
  sources := hstyle ▸ ha.sources
  layers := hstyle ▸ ha.layers
  nodup := ha.nodup
  bundled := ha.bundled
  lost := by simpa [hidle] using ha.lost
  drawable := hmain ▸ ha.drawable
  count name hname := by
    have hcount := ha.count name hname
    have hasked := count_flatMap_route hname (h.asks e)
    rw [requested_append, requested_routeMarks, undrawn_append, undrawn_routeMarks,
      hidle, List.append_nil, hglobal, hmain, List.count_append, List.count_append]
    omega

/-- The session moves and asks for nothing. -/
theorem Accounted.keepMarks {h₀ : Home} {e : HomeEvent}
    (ha : Accounted base h marks drawn) (hmarks : routeMarks (.ok h₀) e = []) :
    Accounted base h (marks ++ routeMarks (.ok h₀) e) drawn := by
  rw [hmarks, List.append_nil]
  exact ha

/-- A background block of a bundled route moves its name to the main queue. -/
theorem Accounted.moveToMain (ha : Accounted base h marks drawn) {block : Nat}
    {cluenumber jsonData : String}
    (hblock : h.globalQueue[block]? = some cluenumber)
    (hbundled : Bundled cluenumber) :
    Accounted base
      { h with
        globalQueue := h.globalQueue.eraseIdx block
        mainQueue := h.mainQueue ++ [(jsonData, cluenumber)] } marks drawn where
  loading := ha.loading
  sources := ha.sources
  layers := ha.layers
  nodup := ha.nodup
  bundled := ha.bundled
  lost := ha.lost
  drawable b hb := by
    rcases List.mem_append.mp hb with hb | hb
    · exact ha.drawable b hb
    · rw [List.mem_singleton.mp hb]
      exact hbundled
  count name hname := by
    have hcount := ha.count name hname
    have herase := count_eraseIdx hblock name
    simp only [List.map_append, List.map_cons, List.map_nil, List.count_append,
      List.count_singleton, beq_iff_eq]
    omega

/-- The block of `Clue10` leaves the global queue and nothing else happens. -/
theorem Accounted.dropClue10 (ha : Accounted base h marks drawn) {block : Nat}
    (hblock : h.globalQueue[block]? = some "Clue10") :
    Accounted base { h with globalQueue := h.globalQueue.eraseIdx block }
      marks drawn where
  loading := ha.loading
  sources := ha.sources
  layers := ha.layers
  nodup := ha.nodup
  bundled := ha.bundled
  lost := ha.lost
  drawable := ha.drawable
  count name hname := by
    have hcount := ha.count name hname
    have herase := count_eraseIdx hblock name
    rw [if_neg (Ne.symm hname)] at herase
    simp only
    omega

/-- `drawPolyline` without a style loses the route. -/
theorem Accounted.lose (ha : Accounted base h marks drawn)
    {geoJson identifier : String} {rest : List (String × String)}
    (hmain : h.mainQueue = (geoJson, identifier) :: rest) (hstyle : h.style = none) :
    Accounted base { h with style := none, mainQueue := rest }
      (marks ++ routeMarks (.ok h) .runMain) drawn where
  loading _ := ha.loading hstyle
  sources st hst := by simp at hst
  layers st hst := by simp at hst
  nodup := ha.nodup
  bundled := ha.bundled
  lost name hname := by
    rw [undrawn_append, undrawn_routeMarks, List.mem_append] at hname
    simp only [loses, hmain, hstyle] at hname
    rcases hname with hname | hname
    · exact ha.lost name hname
    · rw [List.mem_singleton.mp hname]
      exact ha.drawable (geoJson, identifier) (by simp [hmain])
  drawable b hb := ha.drawable b (by simp [hmain, hb])
  count name hname := by
    have hcount := ha.count name hname
    simp only [hmain, List.map_cons, List.count_cons, beq_iff_eq] at hcount
    simp only [requested_append, requested_routeMarks, Home.asks, List.flatMap_nil,
      List.append_nil, undrawn_append, undrawn_routeMarks, loses, hmain, hstyle,
      List.count_append, List.count_singleton, beq_iff_eq]
    omega

/-- A route that is in the style already has two requests. -/
theorem Accounted.not_nodup_of_redundant (ha : Accounted base h marks drawn)
    {geoJson identifier : String} {rest : List (String × String)}
    (hmain : h.mainQueue = (geoJson, identifier) :: rest)
    (hdrawn : identifier ∈ drawn) : ¬(requested marks).Nodup := by
  intro hnodup
  have hbundled : Bundled identifier := ha.drawable (geoJson, identifier)
    (by simp [hmain])
  have hne : identifier ≠ "Clue10" := by
    rintro rfl
    exact not_bundled_clue10 hbundled
  have hcount := ha.count identifier hne
  have hle := List.nodup_iff_count.mp hnodup identifier
  have hpos := List.count_pos_iff.mpr hdrawn
  simp only [hmain, List.map_cons, List.count_cons, beq_self_eq_true,
    if_true] at hcount
  omega

/-- A route that is not in the style yet is added to it. -/
theorem Accounted.draw (ha : Accounted base h marks drawn)
    {geoJson identifier : String} {rest : List (String × String)} {style : Style}
    (hmain : h.mainQueue = (geoJson, identifier) :: rest)
    (hstyle : h.style = some style) (hdrawn : identifier ∉ drawn) :
    Accounted base
      { h with
        style := some ⟨style.sources ++ [identifier], style.layers ++ [identifier]⟩
        mainQueue := rest } marks (drawn ++ [identifier]) where
  loading hnone := by simp at hnone
  sources st hst := by
    simp only [Option.some.injEq] at hst
    rw [← hst, ha.sources style hstyle, List.append_assoc]
  layers st hst := by
    simp only [Option.some.injEq] at hst
    rw [← hst, ha.layers style hstyle, List.append_assoc]
  nodup := by
    rw [List.nodup_append]
    refine ⟨ha.nodup, List.nodup_singleton identifier, ?_⟩
    intro a hmem b hb
    rw [List.mem_singleton.mp hb]
    rintro rfl
    exact hdrawn hmem
  bundled name hname := by
    rcases List.mem_append.mp hname with hname | hname
    · exact ha.bundled name hname
    · rw [List.mem_singleton.mp hname]
      exact ha.drawable (geoJson, identifier) (by simp [hmain])
  lost := ha.lost
  drawable b hb := ha.drawable b (by simp [hmain, hb])
  count name hname := by
    have hcount := ha.count name hname
    simp only [hmain, List.map_cons, List.count_cons, beq_iff_eq] at hcount
    simp only [List.count_append, List.count_singleton, beq_iff_eq]
    omega

/-- The style finishes loading: nothing has been drawn before. -/
theorem Accounted.finishLoading (ha : Accounted base h marks drawn)
    (hstyle : h.style = none) :
    Accounted base { h with style := some base.toStyle } marks drawn where
  loading hnone := by simp at hnone
  sources st hst := by
    simp only [Option.some.injEq] at hst
    rw [← hst, ha.loading hstyle, List.append_nil]
  layers st hst := by
    simp only [Option.some.injEq] at hst
    rw [← hst, ha.loading hstyle, List.append_nil]
  nodup := ha.nodup
  bundled := ha.bundled
  lost := ha.lost
  drawable := ha.drawable
  count := ha.count

end Step

/-! ## Runs of a session -/

section Session

variable (bundle : InstalledBundle) (base : BaseStyle)

/-- One event of a session, which stays where it crashed. -/
abbrev step : Except Crash Home → HomeEvent → Except Crash Home :=
  halting (Home.step bundle base)

/-- A session from the end of `viewDidLoad`. -/
def session (es : List HomeEvent) : Except Crash Home :=
  exec (step bundle base) (.ok Home.launched) es

/-- The marks of a session, in order. -/
def sessionMarks (es : List HomeEvent) : List RouteMark :=
  trace (step bundle base) routeMarks (.ok Home.launched) es

/-- Routes the session has asked for so far, in order. -/
def requestedRoutes (es : List HomeEvent) : List String :=
  requested (sessionMarks bundle base es)

/-- While it runs, a session is accounted for; if the style ended it, some
route was asked for twice. -/
def RouteInv (p : Except Crash Home) (marks : List RouteMark) : Prop :=
  Ends (fun h => ∃ drawn, Accounted base h marks drawn)
    (fun c => c.Redundant → ¬(requested marks).Nodup) p

variable {bundle base}

/-- A background block that returns moves its route on, or drops `Clue10`. -/
theorem Accounted.load {h : Home} {marks : List RouteMark} {drawn : List String}
    (ha : Accounted base h marks drawn) {block : Nat} {cluenumber : String}
    {jsonData : Option String} (hblock : h.globalQueue[block]? = some cluenumber)
    (hload : loadGeoJson bundle cluenumber = .ok jsonData) :
    Accounted base
      { h with
        globalQueue := h.globalQueue.eraseIdx block
        mainQueue := h.mainQueue ++ (jsonData.map (·, cluenumber)).toList }
      marks drawn := by
  rcases loadGeoJson_ok hload with ⟨rfl, rfl⟩ | ⟨hbundled, data, rfl, -⟩
  · have hdrop := ha.dropClue10 hblock
    rw [Option.map_none, Option.toList_none, List.append_nil]
    exact hdrop
  · exact ha.moveToMain hblock hbundled

/-- A block that draws loses its route or adds it to the style. -/
theorem Accounted.runMain {h : Home} {marks : List RouteMark} {drawn : List String}
    (ha : Accounted base h marks drawn) {geoJson identifier : String}
    {rest : List (String × String)} {style : Option Style}
    (hmain : h.mainQueue = (geoJson, identifier) :: rest)
    (hdraw : drawPolyline bundle geoJson identifier h.style = .ok style) :
    ∃ drawn', Accounted base { h with style := style, mainQueue := rest }
      (marks ++ routeMarks (.ok h) .runMain) drawn' := by
  cases hstyle : h.style with
  | none =>
      rw [hstyle] at hdraw
      cases hdraw
      exact ⟨drawn, ha.lose hmain hstyle⟩
  | some st =>
      rw [hstyle] at hdraw
      obtain ⟨hsource, -, rfl⟩ := drawPolyline_ok hdraw
      have hfresh : identifier ∉ drawn := by
        intro hdrawn
        rw [ha.sources st hstyle] at hsource
        exact hsource (List.mem_append_right _ hdrawn)
      have hmarks : routeMarks (.ok h) .runMain = [] := by
        simp [routeMarks, Home.asks, loses, hmain, hstyle]
      exact ⟨_, (ha.draw hmain hstyle hfresh).keepMarks hmarks⟩

/-- An identifier that is refused as redundant has been asked for twice: it is
a bundled route, so the style has it from an earlier request. -/
theorem Accounted.not_nodup_of_refused {h : Home} {marks : List RouteMark}
    {drawn : List String} (ha : Accounted base h marks drawn)
    {geoJson identifier : String} {rest : List (String × String)} {c : Crash}
    (hmain : h.mainQueue = (geoJson, identifier) :: rest)
    (hdraw : drawPolyline bundle geoJson identifier h.style = .error c)
    (hredundant : c.Redundant) : ¬(requested marks).Nodup := by
  rcases drawPolyline_error hdraw with ⟨-, rfl⟩ | ⟨-, st, hstyle, hhas⟩
  · exact False.elim hredundant
  · have hbundled : Bundled identifier :=
      ha.drawable (geoJson, identifier) (by simp [hmain])
    rw [ha.sources st hstyle, ha.layers st hstyle, List.mem_append,
      List.mem_append] at hhas
    refine ha.not_nodup_of_redundant hmain ?_
    rcases hhas with (hbase | hdrawn) | (hbase | hdrawn)
    · exact absurd hbundled (base.sources_not_bundled _ hbase)
    · exact hdrawn
    · exact absurd hbundled (base.layers_not_bundled _ hbase)
    · exact hdrawn

/-- **Step lemma.**  Every event keeps the accounting. -/
theorem routeInv_step (p : Except Crash Home) (e : HomeEvent)
    (marks : List RouteMark) (hinv : RouteInv base p marks) :
    RouteInv base (step bundle base p e) (marks ++ routeMarks p e) := by
  cases p with
  | error c => simpa using hinv
  | ok h =>
      obtain ⟨drawn, ha⟩ := hinv
      rw [step, halting_ok]
      have htransition := step_transition bundle base h e
      generalize h.step bundle base e = p at htransition ⊢
      cases htransition with
      | asked hstyle hglobal hmain hidle =>
          refine ⟨drawn, ha.ask hstyle hglobal hmain ?_⟩
          unfold loses
          split
          · rw [hidle rfl]
          · rfl
      | aborted href => exact False.elim
      | loaded hblock hload => exact ⟨drawn, (ha.load hblock hload).keepMarks rfl⟩
      | loadFailed hblock hload =>
          obtain ⟨message, rfl⟩ := loadGeoJson_error hload
          exact False.elim
      | drawn hmain hdraw => exact ha.runMain hmain hdraw
      | drawFailed hmain hdraw =>
          intro hredundant hnodup
          rw [requested_append] at hnodup
          exact ha.not_nodup_of_refused hmain hdraw hredundant hnodup.of_append_left
      | styleLoaded hstyle => exact ⟨drawn, (ha.finishLoading hstyle).keepMarks rfl⟩

/-- **Run lemma.**  Every session is accounted for. -/
theorem routeInv_session (es : List HomeEvent) :
    RouteInv base (session bundle base es) (sessionMarks bundle base es) := by
  have h0 : RouteInv base (.ok Home.launched) [] := ⟨[], accounted_launched base⟩
  exact trace_inv routeInv_step h0 es

/-! ## Sessions on bundled routes -/

/-- The event asks for no route, or for a bundled one. -/
def BundledRequest : HomeEvent → Prop
  | .lastPathResponse response =>
      ∀ name ∈ getLastPath response, Bundled name
  | .giveQRCodeValue value => Bundled value
  | _ => True

instance : DecidablePred BundledRequest := fun e => by
  cases e <;> unfold BundledRequest <;> infer_instance

/-- A `drawPolyline` block that runs finds the style loaded. -/
def DrawFindsStyle : Except Crash Home → HomeEvent → Prop
  | .ok h, .runMain => h.mainQueue ≠ [] → h.style ≠ none
  | _, _ => True

instance : ∀ (p : Except Crash Home) e, Decidable (DrawFindsStyle p e) := by
  intro p e
  cases p <;> cases e <;> unfold DrawFindsStyle <;> infer_instance

/-- Everything queued can be loaded and parsed, so only the style can end the
session. -/
def Calm (bundle : InstalledBundle) : Except Crash Home → Prop :=
  Ends (fun h => (∀ name ∈ h.globalQueue, Bundled name) ∧
    ∀ block ∈ h.mainQueue, bundle.parses block.1 = true) Crash.Redundant

theorem bundled_of_mem_asks {h : Home} {e : HomeEvent} (hreq : BundledRequest e) :
    ∀ name ∈ h.asks e, Bundled name := by
  intro name hname
  cases e with
  | lastPathResponse response =>
      simp only [Home.asks] at hname
      split at hname
      · exact hreq name (Option.mem_toList.mp hname)
      · simp at hname
  | giveQRCodeValue value =>
      have href := document_clues (isDocumentID_of_bundled hreq)
      rw [asks_giveQRCodeValue h href] at hname
      split at hname
      · simp at hname
      · rw [List.mem_singleton.mp hname]
        exact hreq
  | _ => simp [Home.asks] at hname

theorem calm_step (hparse : bundle.RoutesParse) (p : Except Crash Home)
    (e : HomeEvent) (hcalm : Calm bundle p) (hreq : BundledRequest e) :
    Calm bundle (step bundle base p e) := by
  cases p with
  | error c => exact hcalm
  | ok h =>
      obtain ⟨hqueue, hparses⟩ := hcalm
      rw [step, halting_ok]
      have htransition := step_transition bundle base h e
      generalize h.step bundle base e = p at htransition ⊢
      cases htransition with
      | asked hstyle hglobal hmain hidle =>
          refine ⟨?_, hmain ▸ hparses⟩
          intro name hname
          rw [hglobal, List.mem_append] at hname
          exact hname.elim (hqueue name) (bundled_of_mem_asks hreq name)
      | aborted href =>
          rw [document_clues (isDocumentID_of_bundled hreq)] at href
          cases href
      | loaded hblock hload =>
          refine ⟨fun name hname => hqueue name (List.mem_of_mem_eraseIdx hname), ?_⟩
          intro b hb
          have hbundled := hqueue _ (List.mem_of_getElem? hblock)
          rcases loadGeoJson_ok hload with ⟨rfl, -⟩ | ⟨-, data, rfl, hdata⟩
          · exact absurd hbundled not_bundled_clue10
          · rcases List.mem_append.mp hb with hb | hb
            · exact hparses b hb
            · rw [Option.map_some, Option.toList_some, List.mem_singleton] at hb
              rw [hb]
              exact hparse _ hbundled data hdata
      | loadFailed hblock hload =>
          have hbundled := hqueue _ (List.mem_of_getElem? hblock)
          obtain ⟨data, -, hok⟩ := loadGeoJson_bundled bundle hbundled
          rw [hok] at hload
          cases hload
      | drawn hmain hdraw =>
          exact ⟨hqueue, fun b hb => hparses b (by simp [hmain, hb])⟩
      | drawFailed hmain hdraw =>
          rcases drawPolyline_error hdraw with ⟨hunparsed, -⟩ | ⟨hredundant, -⟩
          · have hparsed := hparses _ (hmain ▸ List.mem_cons_self)
            rw [hunparsed] at hparsed
            cases hparsed
          · exact hredundant
      | styleLoaded hstyle => exact ⟨hqueue, hparses⟩

theorem calm_session (hparse : bundle.RoutesParse) {es : List HomeEvent}
    (hreq : ∀ e ∈ es, BundledRequest e) : Calm bundle (session bundle base es) := by
  have h0 : Calm bundle (.ok Home.launched) := by
    constructor <;> intro _ h <;> simp [Home.launched] at h
  have hC : Along (step bundle base) (fun _ e => BundledRequest e)
      (.ok Home.launched) es := along_event_iff.mpr hreq
  exact (throughout_of_guard (calm_step hparse) h0 hC).last

/-- A session on bundled routes asks for bundled routes. -/
theorem bundled_of_mem_requestedRoutes {es : List HomeEvent}
    (hreq : ∀ e ∈ es, BundledRequest e) :
    ∀ name ∈ requestedRoutes bundle base es, Bundled name := by
  have hstep : ∀ (p : Except Crash Home) e marks,
      (∀ name ∈ requested marks, Bundled name) → BundledRequest e →
      ∀ name ∈ requested (marks ++ routeMarks p e), Bundled name := by
    intro p e marks hmarks hr name hname
    rw [requested_append, List.mem_append] at hname
    rcases hname with hname | hname
    · exact hmarks name hname
    · cases p with
      | error c => simp [requested] at hname
      | ok h =>
          rw [requested_routeMarks, List.mem_flatMap] at hname
          obtain ⟨asked, hasked, hroute⟩ := hname
          unfold route at hroute
          split at hroute
          · cases hroute
          · rw [List.mem_singleton.mp hroute]
            exact bundled_of_mem_asks hr asked hasked
  have h0 : ∀ name ∈ requested [], Bundled name := by simp [requested]
  have hC : Along (step bundle base) (fun _ e => BundledRequest e)
      (.ok Home.launched) es := along_event_iff.mpr hreq
  exact trace_inv_of_along hstep h0 hC

/-- A step loses nothing exactly when its draw, if any, finds the style. -/
theorem undrawn_routeMarks_eq_nil_iff (p : Except Crash Home) (e : HomeEvent) :
    undrawn (routeMarks p e) = [] ↔ DrawFindsStyle p e := by
  cases p with
  | error c => simp [undrawn, DrawFindsStyle]
  | ok h =>
      rw [undrawn_routeMarks]
      cases e with
      | runMain =>
          cases hmain : h.mainQueue with
          | nil => simp [loses, DrawFindsStyle, hmain]
          | cons block rest =>
              cases hstyle : h.style <;> simp [loses, DrawFindsStyle, hmain, hstyle]
      | _ => simp [loses, DrawFindsStyle]

/-- No route is lost exactly when every draw finds the style. -/
theorem undrawn_sessionMarks_eq_nil_iff {es : List HomeEvent} :
    undrawn (sessionMarks bundle base es) = [] ↔
      Along (step bundle base) DrawFindsStyle (.ok Home.launched) es := by
  unfold undrawn sessionMarks
  rw [trace_filterMap, trace_eq_nil_iff]
  constructor
  · exact Along.mono fun p e h => (undrawn_routeMarks_eq_nil_iff p e).mp h
  · exact Along.mono fun p e h => (undrawn_routeMarks_eq_nil_iff p e).mpr h

/-- Once no block is pending, every request was drawn or lost. -/
theorem Accounted.count_requested {h : Home} {marks : List RouteMark}
    {drawn : List String} (ha : Accounted base h marks drawn)
    (hglobal : h.globalQueue = []) (hmain : h.mainQueue = []) {name : String}
    (hname : name ≠ "Clue10") :
    (requested marks).count name =
      drawn.count name + (undrawn marks).count name := by
  have hcount := ha.count name hname
  rw [hglobal, hmain] at hcount
  simpa using hcount

theorem ne_clue10_of_bundled {name : String} (h : Bundled name) :
    name ≠ "Clue10" := by
  rintro rfl
  exact not_bundled_clue10 h

end Session

/-! ## No route is added twice -/

/-- Neither `addSource` nor `addLayer` was given an identifier the style
already had; such a call raises and ends the session. -/
def NoRedundantAdd : Except Crash Home → Prop
  | .ok _ => True
  | .error c => ¬c.Redundant

instance : DecidablePred NoRedundantAdd := fun p => by
  cases p <;> unfold NoRedundantAdd <;> infer_instance

/-- No block is left to run. -/
def Drained : Except Crash Home → Prop
  | .ok h => h.globalQueue = [] ∧ h.mainQueue = []
  | .error _ => True

instance : DecidablePred Drained := fun p => by
  cases p <;> unfold Drained <;> infer_instance

section NoRedundantAdd

variable {bundle : InstalledBundle} {base : BaseStyle} {es : List HomeEvent}

theorem throughout_noRedundantAdd (hnodup : (requestedRoutes bundle base es).Nodup) :
    Throughout (step bundle base) NoRedundantAdd (.ok Home.launched) es := by
  rw [throughout_iff_prefixes]
  intro pre hpre
  have hinv : RouteInv base (session bundle base pre)
      (sessionMarks bundle base pre) := routeInv_session pre
  have hsub : (requestedRoutes bundle base pre).Sublist
      (requestedRoutes bundle base es) :=
    (trace_isPrefix hpre).sublist.filterMap _
  change NoRedundantAdd (session bundle base pre)
  cases hp : session bundle base pre with
  | ok h => trivial
  | error c =>
      intro hred
      exact Ends.of_error hinv hp hred (hsub.nodup hnodup)

/-- A session on bundled routes that drew everything asked for, and was not
stopped by the style, asked for no route twice. -/
theorem nodup_of_throughout_noRedundantAdd (hparse : bundle.RoutesParse)
    (hreq : ∀ e ∈ es, BundledRequest e)
    (hfinds : Along (step bundle base) DrawFindsStyle (.ok Home.launched) es)
    (hdrained : Drained (session bundle base es))
    (hsafe : Throughout (step bundle base) NoRedundantAdd (.ok Home.launched) es) :
    (requestedRoutes bundle base es).Nodup := by
  have hcalm : Calm bundle (session bundle base es) := calm_session hparse hreq
  have hinv : RouteInv base (session bundle base es)
      (sessionMarks bundle base es) := routeInv_session es
  have hlast : NoRedundantAdd (session bundle base es) := hsafe.last
  cases hp : session bundle base es with
  | error c =>
      rw [hp] at hlast
      exact absurd (Ends.of_error hcalm hp) hlast
  | ok h =>
      rw [hp] at hdrained
      obtain ⟨drawn, ha⟩ := Ends.of_ok hinv hp
      obtain ⟨hglobal, hmain⟩ := hdrained
      have hlost := undrawn_sessionMarks_eq_nil_iff.mpr hfinds
      rw [List.nodup_iff_count]
      intro name
      by_cases hmem : name ∈ requestedRoutes bundle base es
      · have hne := ne_clue10_of_bundled
          (bundled_of_mem_requestedRoutes hreq name hmem)
        have hcount := ha.count_requested hglobal hmain hne
        have hle := List.nodup_iff_count.mp ha.nodup name
        rw [hlost, List.count_nil] at hcount
        unfold requestedRoutes
        omega
      · rw [List.count_eq_zero_of_not_mem hmem]
        omega

end NoRedundantAdd

/-- **When a route is added twice.**  A session that asks for no route twice
never adds one twice, whatever the order of its blocks; and a session on
bundled routes whose blocks have all run with the style there, without such a
call, has asked for no route twice. -/
theorem no_route_added_twice (bundle : InstalledBundle) (base : BaseStyle)
    (es : List HomeEvent) :
    ((requestedRoutes bundle base es).Nodup →
      Throughout (step bundle base) NoRedundantAdd (.ok Home.launched) es) ∧
    (bundle.RoutesParse → (∀ e ∈ es, BundledRequest e) →
      Along (step bundle base) DrawFindsStyle (.ok Home.launched) es →
      Drained (session bundle base es) →
      Throughout (step bundle base) NoRedundantAdd (.ok Home.launched) es →
      (requestedRoutes bundle base es).Nodup) := by
  constructor
  · intro hnodup
    exact throughout_noRedundantAdd hnodup
  · intro hparse hreq hfinds hdrained hsafe
    exact nodup_of_throughout_noRedundantAdd hparse hreq hfinds hdrained hsafe

/-- Two scans, the second with the restored route still being loaded. -/
def scanAndRestore : List HomeEvent :=
  [ .didFinishLoadingStyle
  , .giveQRCodeValue "Clue2"
  , .lastPathResponse
      (.snapshot (some (Fields.ofList [("last-path", .string "Clue1")])))
  , .runGlobal 1, .runMain
  , .giveQRCodeValue "Clue3"
  , .runGlobal 1, .runGlobal 0, .runMain, .runMain ]

theorem no_route_added_twice_scanAndRestore :
    Throughout (step sampleBundle emptyStyle) NoRedundantAdd (.ok Home.launched)
      scanAndRestore ∧
    (requestedRoutes sampleBundle emptyStyle scanAndRestore).Nodup := by
  have hnodup : (requestedRoutes sampleBundle emptyStyle scanAndRestore).Nodup := by
    decide
  have hboth := no_route_added_twice sampleBundle emptyStyle scanAndRestore
  have hsafe := hboth.1 hnodup
  exact ⟨hsafe, hboth.2 sampleBundle_routesParse (by decide) (by decide)
    (by decide) hsafe⟩

/-- One place scanned twice. -/
def scanTwice : List HomeEvent :=
  [ .didFinishLoadingStyle
  , .giveQRCodeValue "Clue1", .runGlobal 0, .runMain
  , .giveQRCodeValue "Clue1", .runGlobal 0, .runMain ]

theorem scanTwice_adds_route_twice :
    ¬∀ (bundle : InstalledBundle) (base : BaseStyle) (es : List HomeEvent),
      bundle.RoutesParse → (∀ e ∈ es, BundledRequest e) →
      Along (step bundle base) DrawFindsStyle (.ok Home.launched) es →
      Throughout (step bundle base) NoRedundantAdd (.ok Home.launched) es := by
  intro hclaim
  have hsafe := hclaim sampleBundle emptyStyle scanTwice sampleBundle_routesParse
    (by decide) (by decide)
  exact absurd hsafe (by decide)

/-! ## The routes of a finished session -/

/-- The style is the loaded one with one source and one layer more for each
name, in some order. -/
structure DrawnExactly (base : BaseStyle) (style : Style) (names : List String) :
    Prop where
  sources : style.sources.Perm (base.sources ++ names)
  layers : style.layers.Perm (base.layers ++ names)

section Finished

variable {bundle : InstalledBundle} {base : BaseStyle} {es : List HomeEvent}

/-- Distinct bundled routes never end a session. -/
theorem session_ok (hparse : bundle.RoutesParse)
    (hreq : ∀ e ∈ es, BundledRequest e)
    (hnodup : (requestedRoutes bundle base es).Nodup) :
    ∃ h, session bundle base es = .ok h := by
  have hcalm : Calm bundle (session bundle base es) := calm_session hparse hreq
  have hsafe : NoRedundantAdd (session bundle base es) :=
    (throughout_noRedundantAdd hnodup).last
  cases hp : session bundle base es with
  | ok h => exact ⟨h, rfl⟩
  | error c =>
      rw [hp] at hsafe
      exact absurd (Ends.of_error hcalm hp) hsafe

/-- The routes drawn are those asked for exactly when none was lost. -/
theorem Accounted.perm_iff {h : Home} {marks : List RouteMark}
    {drawn : List String} (ha : Accounted base h marks drawn)
    (hglobal : h.globalQueue = []) (hmain : h.mainQueue = [])
    (hbundled : ∀ name ∈ requested marks, Bundled name) :
    drawn.Perm (requested marks) ↔ undrawn marks = [] := by
  constructor
  · intro hperm
    rw [List.eq_nil_iff_forall_not_mem]
    intro name hname
    have hne := ne_clue10_of_bundled (ha.lost name hname)
    have hpos := List.count_pos_iff.mpr hname
    have hsame := hperm.count_eq name
    have hsum := ha.count_requested hglobal hmain hne
    omega
  · intro hlost
    rw [List.perm_iff_count]
    intro name
    by_cases hne : name = "Clue10"
    · have hdrawn : name ∉ drawn := fun hmem =>
        ne_clue10_of_bundled (ha.bundled name hmem) hne
      have hreq : name ∉ requested marks := fun hmem =>
        ne_clue10_of_bundled (hbundled name hmem) hne
      rw [List.count_eq_zero_of_not_mem hdrawn, List.count_eq_zero_of_not_mem hreq]
    · rw [ha.count_requested hglobal hmain hne, hlost, List.count_nil,
        Nat.add_zero]

end Finished

/-- **When the finished style holds the routes asked for.**  On distinct
bundled routes a session does not crash, and once the style is there and no
block is pending it has exactly the routes asked for if and only if no
`drawPolyline` block ran before the style had finished loading. -/
theorem routes_drawn_iff (bundle : InstalledBundle) (base : BaseStyle)
    (es : List HomeEvent) (hparse : bundle.RoutesParse)
    (hreq : ∀ e ∈ es, BundledRequest e)
    (hnodup : (requestedRoutes bundle base es).Nodup) :
    ∃ h, session bundle base es = .ok h ∧
      ∀ style, h.style = some style → h.globalQueue = [] → h.mainQueue = [] →
        (DrawnExactly base style (requestedRoutes bundle base es) ↔
          Along (step bundle base) DrawFindsStyle (.ok Home.launched) es) := by
  obtain ⟨h, hsession⟩ := session_ok hparse hreq hnodup
  refine ⟨h, hsession, ?_⟩
  intro style hstyle hglobal hmain
  have hinv : RouteInv base (session bundle base es)
      (sessionMarks bundle base es) := routeInv_session es
  obtain ⟨drawn, ha⟩ := Ends.of_ok hinv hsession
  have hbundled : ∀ name ∈ requested (sessionMarks bundle base es),
      Bundled name := bundled_of_mem_requestedRoutes hreq
  rw [← undrawn_sessionMarks_eq_nil_iff, ← ha.perm_iff hglobal hmain hbundled]
  constructor
  · intro hexact
    have hsources := hexact.sources
    rw [ha.sources style hstyle] at hsources
    exact (List.perm_append_left_iff base.sources).mp hsources
  · intro hperm
    refine { sources := ?_, layers := ?_ }
    · rw [ha.sources style hstyle]
      exact (List.perm_append_left_iff base.sources).mpr hperm
    · rw [ha.layers style hstyle]
      exact (List.perm_append_left_iff base.layers).mpr hperm

theorem routes_drawn_scanAndRestore : ∃ h style,
    session sampleBundle emptyStyle scanAndRestore = .ok h ∧ h.style = some style ∧
      DrawnExactly emptyStyle style
        (requestedRoutes sampleBundle emptyStyle scanAndRestore) := by
  obtain ⟨h, hsession, hdrawn⟩ := routes_drawn_iff sampleBundle emptyStyle scanAndRestore
    sampleBundle_routesParse (by decide) (by decide)
  have hend : (match session sampleBundle emptyStyle scanAndRestore with
      | .ok h => decide (h.style ≠ none ∧ h.globalQueue = [] ∧ h.mainQueue = [])
      | .error _ => false) = true := by decide
  rw [hsession] at hend
  obtain ⟨hloaded, hglobal, hmain⟩ := of_decide_eq_true hend
  obtain ⟨style, hstyle⟩ := Option.ne_none_iff_exists'.mp hloaded
  exact ⟨h, style, hsession, hstyle,
    (hdrawn style hstyle hglobal hmain).mpr (by decide)⟩

/-- The restored route is loaded before the style is. -/
def drawBeforeStyle : List HomeEvent :=
  [ .lastPathResponse
      (.snapshot (some (Fields.ofList [("last-path", .string "Clue1")])))
  , .runGlobal 0, .runMain
  , .didFinishLoadingStyle ]

theorem drawBeforeStyle_loses_route :
    ¬∀ (bundle : InstalledBundle) (base : BaseStyle) (es : List HomeEvent),
      bundle.RoutesParse → (∀ e ∈ es, BundledRequest e) →
      (requestedRoutes bundle base es).Nodup →
      ∃ h, session bundle base es = .ok h ∧
        ∀ style, h.style = some style → h.globalQueue = [] → h.mainQueue = [] →
          DrawnExactly base style (requestedRoutes bundle base es) := by
  intro hclaim
  obtain ⟨h, hsession, hdrawn⟩ := hclaim sampleBundle emptyStyle drawBeforeStyle
    sampleBundle_routesParse (by decide) (by decide)
  have hend : session sampleBundle emptyStyle drawBeforeStyle =
      .ok ⟨none, some emptyStyle.toStyle, false, [], []⟩ := by decide
  rw [hend] at hsession
  cases hsession
  have hsources := (hdrawn emptyStyle.toStyle rfl rfl rfl).sources
  exact absurd hsources (by decide)

end ValentinesDay.Ports.RouteDrawing
