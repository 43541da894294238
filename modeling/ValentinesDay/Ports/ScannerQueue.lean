import ValentinesDay.Ports.Scanner

/-!
# One presentation of the scanner

A session captures batches while it runs, and each waits on the main queue for
its turn; stopping the session does not call back those that wait.  Nothing but
the stopped session tells `metadataOutput` that a code was handled already.

## Main results

* `controller_of_presentation` — a presentation is the controller of
  `ValentinesDay.Ports.Scanner` under the calls that reach it.
* `transition_step` — everything an event can do to a presentation.
* `one_code_per_presentation` — a presentation hands over one code at most when
  no code arrives after the dismissal was requested.
-/

namespace ValentinesDay.Ports.ScannerQueue

open ValentinesDay.Verified.Fallible
open ValentinesDay.Verified.Run
open ValentinesDay.Ports.Runtime
open ValentinesDay.Ports.Persistence
open ValentinesDay.Ports.HomePage
open ValentinesDay.Ports.Scanner

/-! ## The session and the main queue -/

/-- A presented controller with its callbacks on the main queue. -/
structure Presentation where
  qr : QrCode
  /-- Batches captured and not yet delivered. -/
  mainQueue : List (List MetadataObject)
  /-- The dismissal has ended; the controller is gone. -/
  ended : Bool
  deriving DecidableEq, Repr

/-- What the camera, the main queue and the presentation do. -/
inductive ScannerEvent where
  | capture (metadataObjects : List MetadataObject)
  | runMain
  | viewWillAppear
  | viewWillDisappear
  | dismissalEnds
  deriving DecidableEq, Repr

/-- What the event calls on the controller. -/
def Presentation.calls (s : Presentation) : ScannerEvent → List QrEvent
  | .capture _ => []
  | .runMain => s.mainQueue.head?.toList.map .metadataOutput
  | .viewWillAppear => [.viewWillAppear]
  | .viewWillDisappear => [.viewWillDisappear]
  | .dismissalEnds => []

/-- The queue and the life of the controller after the event. -/
def Presentation.advance (s : Presentation) : ScannerEvent → Presentation
  | .capture metadataObjects =>
      if s.qr.Captures then { s with mainQueue := s.mainQueue ++ [metadataObjects] }
      else s
  | .runMain => { s with mainQueue := s.mainQueue.tail }
  | .viewWillAppear => s
  | .viewWillDisappear => s
  | .dismissalEnds => if s.qr.onScreen then s else { s with ended := true }

/-- One event.  A stopped session captures nothing, but what waits on the main
queue still runs; once the controller is gone nothing reaches it. -/
def Presentation.step (s : Presentation) (e : ScannerEvent) : Except Crash Presentation :=
  if s.ended then .ok s
  else do
    let qr ← (s.calls e).foldlM QrCode.step s.qr
    return { s.advance e with qr := qr }

abbrev present : Except Crash Presentation → ScannerEvent → Except Crash Presentation :=
  halting Presentation.step

/-- `HomePage.openQrCamera` on a working camera. -/
def Presentation.opened : Presentation where
  qr := QrCode.opened true
  mainQueue := []
  ended := false

/-! ## What a presentation hands over -/

/-- The calls that reach the controller. -/
def callsOf : Except Crash Presentation → ScannerEvent → List QrEvent
  | .ok s, e => if s.ended then [] else s.calls e
  | .error _, _ => []

/-- The strings an event hands to `giveQRCodeValue`. -/
def codes : Except Crash Presentation → ScannerEvent → List String
  | .ok s, e => (callsOf (.ok s) e).flatMap s.qr.handsOver
  | .error _, _ => []

/-- What these strings make the app do. -/
def performed : Except Crash Presentation → ScannerEvent → List Effect
  | .ok s, e => (callsOf (.ok s) e).flatMap s.qr.performs
  | .error _, _ => []

/-- The presentation after a run from `openQrCamera`. -/
def presentationAfter (es : List ScannerEvent) : Except Crash Presentation :=
  exec present (.ok Presentation.opened) es

/-- The strings of a run, in order. -/
def codesOf (es : List ScannerEvent) : List String :=
  trace present codes (.ok Presentation.opened) es

/-- What a run makes the app do, in order. -/
def performedOf (es : List ScannerEvent) : List Effect :=
  trace present performed (.ok Presentation.opened) es

/-- The controller of a presentation is the controller its calls lead to. -/
theorem controller_of_presentation (es : List ScannerEvent) :
    exec step (.ok (QrCode.opened true))
        (trace present callsOf (.ok Presentation.opened) es) =
      (presentationAfter es).map Presentation.qr := by
  have hsim : ∀ (p : Except Crash Presentation) (e : ScannerEvent)
      (q : Except Crash QrCode), q = p.map Presentation.qr → True →
      (callsOf p e).foldl step q = (present p e).map Presentation.qr := by
    rintro p e q rfl -
    cases p with
    | error c => rfl
    | ok s =>
        show (callsOf (.ok s) e).foldl step (.ok s.qr) = _
        rw [step, foldl_halting_ok, present, halting_ok]
        unfold callsOf Presentation.step
        by_cases hended : s.ended = true
        · simp only [hended, if_true]
          rfl
        · simp only [hended, Bool.false_eq_true, if_false]
          cases (s.calls e).foldlM QrCode.step s.qr <;> rfl
  have hany : Along present (fun _ _ => True) (.ok Presentation.opened) es :=
    along_of_forall (fun _ _ => trivial) _ es
  exact exec_refines
    (R := fun (p : Except Crash Presentation) q => q = p.map Presentation.qr)
    hsim rfl hany

/-- A presentation all of whose delivered batches are handled is never left with
a dead scanner. -/
theorem presentation_not_dead {es : List ScannerEvent}
    (hes : ∀ metadataObjects,
      .metadataOutput metadataObjects ∈
        trace present callsOf (.ok Presentation.opened) es → Handled metadataObjects) :
    NotDead ((presentationAfter es).map Presentation.qr) := by
  rw [← controller_of_presentation]
  refine Throughout.last ((scanner_not_dead_iff true _).mpr ?_)
  have hcalls : Along step (fun _ call => ∀ metadataObjects,
      call = .metadataOutput metadataObjects → Handled metadataObjects)
      (.ok (QrCode.opened true)) (trace present callsOf (.ok Presentation.opened) es) := by
    rw [along_event_iff]
    rintro call hcall metadataObjects rfl
    exact hes metadataObjects hcall
  refine hcalls.mono ?_
  intro p call hhandled
  cases p with
  | error c => cases call <;> trivial
  | ok qr =>
      cases call with
      | metadataOutput metadataObjects => exact fun _ _ => hhandled _ rfl
      | viewWillAppear => trivial
      | viewWillDisappear => trivial

/-! ## One step of a presentation -/

/-- The batch the event delivers to the controller. -/
def Presentation.delivered (s : Presentation) (e : ScannerEvent) :
    Option (List MetadataObject) :=
  if s.ended then none
  else
    match e with
    | .runMain => s.mainQueue.head?
    | _ => none

/-- Everything an event can do to a presentation, with the codes it hands over. -/
inductive Presentation.Transition (s : Presentation) (e : ScannerEvent) :
    Except Crash Presentation → List String → Prop
  | quiet {s' : Presentation} (halike : s.qr.Alike s'.qr) : Transition s e (.ok s') []
  | empty {s' : Presentation} (hdelivered : s.delivered e = some [])
      (hqr : s'.qr = s.qr.stopRunning.dismiss) : Transition s e (.ok s') []
  | found {s' : Presentation} {metadataObjects : List MetadataObject} {code : String}
      (hdelivered : s.delivered e = some metadataObjects)
      (hcode : stringValue? metadataObjects = some code)
      (hqr : s'.qr = s.qr.stopRunning.dismiss) : Transition s e (.ok s') [code]
  | crash {metadataObjects : List MetadataObject} {code : String} {c : Crash}
      (hdelivered : s.delivered e = some metadataObjects)
      (hcode : stringValue? metadataObjects = some code) :
      Transition s e (.error c) [code]

/-- The code handed over is that of the batch delivered. -/
theorem codes_eq_delivered {s : Presentation} (hready : s.qr.Ready) (e : ScannerEvent) :
    codes (.ok s) e = ((s.delivered e).bind stringValue?).toList := by
  unfold codes callsOf Presentation.delivered
  by_cases hended : s.ended = true
  · simp [hended]
  · cases e with
    | runMain =>
        cases hqueue : s.mainQueue with
        | nil => simp [hended, Presentation.calls, hqueue]
        | cons metadataObjects rest =>
            simp [hended, Presentation.calls, hqueue, QrCode.handsOver, hready.delegate]
    | capture metadataObjects => simp [hended, Presentation.calls]
    | viewWillAppear => simp [hended, Presentation.calls, QrCode.handsOver]
    | viewWillDisappear => simp [hended, Presentation.calls, QrCode.handsOver]
    | dismissalEnds => simp [hended, Presentation.calls]

theorem transition_runMain {s : Presentation} (hready : s.qr.Ready)
    (hlive : s.ended = false) {metadataObjects : List MetadataObject}
    {rest : List (List MetadataObject)} (hqueue : s.mainQueue = metadataObjects :: rest) :
    s.Transition .runMain (s.step .runMain) (codes (.ok s) .runMain) := by
  have hdelivered : s.delivered .runMain = some metadataObjects := by
    simp [Presentation.delivered, hlive, hqueue]
  have hcodes : codes (.ok s) .runMain = (stringValue? metadataObjects).toList := by
    rw [codes_eq_delivered hready, hdelivered]
    rfl
  have hstep : s.step .runMain =
      (s.qr.metadataOutput metadataObjects).map fun result =>
        { s with mainQueue := rest, qr := result.1 } := by
    simp only [Presentation.step, hlive, Presentation.calls, Presentation.advance,
      hqueue, List.head?_cons, List.tail_cons, Option.toList_some, List.map_cons,
      List.map_nil, List.foldlM_cons, List.foldlM_nil, QrCode.step,
      Bool.false_eq_true, if_false]
    cases s.qr.metadataOutput metadataObjects <;> rfl
  have hdelivery := delivery_metadataOutput hready.session metadataObjects
  rw [hstep, hcodes]
  generalize s.qr.metadataOutput metadataObjects = result at hdelivery ⊢
  cases hdelivery with
  | empty => exact .empty hdelivered rfl
  | early hearly =>
      have hnone : stringValue? metadataObjects = none := by
        by_contra hsome
        exact hearly (.inr (Option.isSome_iff_ne_none.mpr hsome))
      rw [hnone]
      exact .quiet (alike_stopRunning s.qr)
  | found hcode hfound =>
      rw [hcode]
      exact .found hdelivered hcode rfl
  | crash hcode hfound =>
      rw [hcode]
      exact .crash hdelivered hcode

/-- **Inversion of a step.** -/
theorem transition_step {s : Presentation} (hready : s.qr.Ready) (e : ScannerEvent) :
    s.Transition e (s.step e) (codes (.ok s) e) := by
  by_cases hended : s.ended = true
  · have hstep : s.step e = .ok s := by simp [Presentation.step, hended]
    have hcodes : codes (.ok s) e = [] := by simp [codes, callsOf, hended]
    rw [hstep, hcodes]
    exact .quiet (.refl s.qr)
  · have hlive : s.ended = false := Bool.not_eq_true _ ▸ hended
    have hquiet : ∀ call, s.calls e = [call] → s.qr.handsOver call = [] →
        ∀ qr, s.qr.step call = .ok qr → s.qr.Alike qr →
          s.Transition e (s.step e) (codes (.ok s) e) := by
      intro call hcall hnone qr hqr halike
      have hstep : s.step e = .ok { s.advance e with qr := qr } := by
        simp only [Presentation.step, hlive, hcall, List.foldlM_cons, List.foldlM_nil,
          hqr, Bool.false_eq_true, if_false]
        rfl
      have hcodes : codes (.ok s) e = [] := by simp [codes, callsOf, hlive, hcall, hnone]
      rw [hstep, hcodes]
      exact .quiet halike
    have hsilent : s.calls e = [] → s.Transition e (s.step e) (codes (.ok s) e) := by
      intro hcalls
      have hstep : s.step e = .ok { s.advance e with qr := s.qr } := by
        simp only [Presentation.step, hlive, hcalls, List.foldlM_nil,
          Bool.false_eq_true, if_false]
        rfl
      have hcodes : codes (.ok s) e = [] := by simp [codes, callsOf, hlive, hcalls]
      rw [hstep, hcodes]
      exact .quiet (.refl s.qr)
    cases e with
    | capture metadataObjects => exact hsilent rfl
    | dismissalEnds => exact hsilent rfl
    | viewWillAppear =>
        exact hquiet .viewWillAppear rfl rfl _ rfl (alike_viewWillAppear s.qr)
    | viewWillDisappear =>
        exact hquiet .viewWillDisappear rfl rfl _ rfl (alike_viewWillDisappear s.qr)
    | runMain =>
        cases hqueue : s.mainQueue with
        | nil => exact hsilent (by simp [Presentation.calls, hqueue])
        | cons metadataObjects rest => exact transition_runMain hready hlive hqueue

/-! ## One code -/

/-- A batch with a code is delivered only while no dismissal was requested. -/
def CodeBeforeDismissal : Except Crash Presentation → ScannerEvent → Prop
  | .ok s, e => ∀ metadataObjects ∈ s.delivered e,
      (stringValue? metadataObjects).isSome → s.qr.dismissRequested = false
  | .error _, _ => True

/-- No empty batch is delivered. -/
def NonemptyBatch : Except Crash Presentation → ScannerEvent → Prop
  | .ok s, e => s.delivered e ≠ some []
  | .error _, _ => True

instance (p : Except Crash Presentation) (e : ScannerEvent) :
    Decidable (CodeBeforeDismissal p e) := by
  cases p with
  | error c => exact .isTrue trivial
  | ok s => unfold CodeBeforeDismissal; infer_instance

instance (p : Except Crash Presentation) (e : ScannerEvent) :
    Decidable (NonemptyBatch p e) := by
  cases p with
  | error c => exact .isTrue trivial
  | ok s => unfold NonemptyBatch; infer_instance

/-- What the delegate was given and did in a presentation. -/
structure OneScan (codes : List String) (effects : List Effect) : Prop where
  once : codes.length ≤ 1
  effects : effects = codes.flatMap scanEffects

/-- A live presentation is ready for its next event. -/
def LiveReady : Except Crash Presentation → Prop :=
  Ends (fun s => s.qr.Ready) (fun _ => True)

/-- At most one code so far, and the dismissal follows it. -/
def OneCodeInv (p : Except Crash Presentation) (handed : List String) : Prop :=
  handed.length ≤ 1 ∧
    Ends (fun s => s.qr.Ready ∧ (handed ≠ [] → s.qr.dismissRequested = true))
      (fun _ => True) p

/-- Only a code has led to the dismissal. -/
def DismissedForCode (p : Except Crash Presentation) (handed : List String) : Prop :=
  Ends (fun s => s.qr.Ready ∧ (s.qr.dismissRequested = true → handed ≠ []))
    (fun _ => True) p

theorem ready_opened : Presentation.opened.qr.Ready where
  session := rfl
  delegate := rfl

theorem liveReady_step (p : Except Crash Presentation) (e : ScannerEvent)
    (h : LiveReady p) : LiveReady (present p e) := by
  refine ends_halting h ?_
  intro s _ hready
  have htransition := transition_step hready e
  generalize s.step e = next, codes (.ok s) e = handed at htransition ⊢
  cases htransition with
  | quiet halike => exact hready.alike halike
  | empty hdelivered hqr =>
      rw [Ends, hqr]
      exact hready.dismissed
  | found hdelivered hcode hqr =>
      rw [Ends, hqr]
      exact hready.dismissed
  | crash hdelivered hcode => trivial

/-- **Step lemma.**  While codes come only before the dismissal, a second one
never comes. -/
theorem oneCodeInv_step (p : Except Crash Presentation) (e : ScannerEvent)
    (handed : List String) (h : OneCodeInv p handed) (he : CodeBeforeDismissal p e) :
    OneCodeInv (present p e) (handed ++ codes p e) := by
  obtain ⟨hlength, hlive⟩ := h
  cases p with
  | error c => exact ⟨by simpa [codes] using hlength, trivial⟩
  | ok s =>
      obtain ⟨hready, hdismiss⟩ : s.qr.Ready ∧
        (handed ≠ [] → s.qr.dismissRequested = true) := hlive
      have hfirst : ∀ {metadataObjects : List MetadataObject} {code : String},
          s.delivered e = some metadataObjects →
          stringValue? metadataObjects = some code → handed = [] := by
        intro metadataObjects code hdelivered hcode
        by_contra hne
        have hnot : s.qr.dismissRequested = false :=
          he metadataObjects hdelivered (by rw [hcode]; rfl)
        rw [hdismiss hne] at hnot
        cases hnot
      have htransition := transition_step hready e
      rw [present, halting_ok]
      generalize s.step e = next, codes (.ok s) e = new at htransition ⊢
      cases htransition with
      | quiet halike =>
          rw [List.append_nil]
          refine ⟨hlength, hready.alike halike, ?_⟩
          rw [halike.dismissRequested]
          exact hdismiss
      | empty hdelivered hqr =>
          rw [List.append_nil]
          refine ⟨hlength, ?_⟩
          rw [Ends, hqr]
          exact ⟨hready.dismissed, fun _ => rfl⟩
      | found hdelivered hcode hqr =>
          rw [hfirst hdelivered hcode]
          refine ⟨Nat.le_refl 1, ?_⟩
          rw [Ends, hqr]
          exact ⟨hready.dismissed, fun _ => rfl⟩
      | crash hdelivered hcode =>
          rw [hfirst hdelivered hcode]
          exact ⟨Nat.le_refl 1, trivial⟩

theorem dismissedForCode_step (p : Except Crash Presentation) (e : ScannerEvent)
    (handed : List String) (h : DismissedForCode p handed) (he : NonemptyBatch p e) :
    DismissedForCode (present p e) (handed ++ codes p e) := by
  refine ends_halting h ?_
  rintro s rfl ⟨hready, hcause⟩
  have htransition := transition_step hready e
  generalize s.step e = next, codes (.ok s) e = new at htransition ⊢
  cases htransition with
  | quiet halike =>
      rw [List.append_nil]
      refine ⟨hready.alike halike, ?_⟩
      rw [halike.dismissRequested]
      exact hcause
  | empty hdelivered hqr => exact absurd hdelivered he
  | found hdelivered hcode hqr =>
      rw [Ends, hqr]
      exact ⟨hready.dismissed, fun _ => by simp⟩
  | crash hdelivered hcode => trivial

theorem performedOf_eq (es : List ScannerEvent) :
    performedOf es = (codesOf es).flatMap scanEffects := by
  have hany : Along present (fun _ _ => True) (.ok Presentation.opened) es :=
    along_of_forall (fun _ _ => trivial) _ es
  have hstep : ∀ (p : Except Crash Presentation) (e : ScannerEvent), LiveReady p →
      True → performed p e = (codes p e).flatMap scanEffects := by
    intro p e h _
    cases p with
    | error c => rfl
    | ok s =>
        have hready : s.qr.Ready := h
        simp only [performed, codes, List.flatMap_assoc]
        congr 1
        funext call
        exact performs_eq hready.session call
  have h0 : LiveReady (.ok Presentation.opened) := ready_opened
  exact trace_flatMap (along_of_guard (fun p e h _ => liveReady_step p e h) hstep h0 hany)

/-- With no empty batch, a code delivered after the dismissal was requested is a
second one. -/
theorem codeBeforeDismissal_of_once {es : List ScannerEvent}
    (hnonempty : Along present NonemptyBatch (.ok Presentation.opened) es)
    (honce : (codesOf es).length ≤ 1) :
    Along present CodeBeforeDismissal (.ok Presentation.opened) es := by
  refine along_iff_prefixes.mpr ?_
  intro pre e hpre
  have h0 : DismissedForCode (.ok Presentation.opened) [] :=
    ⟨ready_opened, fun h => by cases h⟩
  have hrun : DismissedForCode (exec present (.ok Presentation.opened) pre)
      (codesOf pre) :=
    trace_inv_of_along dismissedForCode_step h0
      (hnonempty.of_isPrefix ((List.prefix_append pre [e]).trans hpre))
  have hprefix : (codesOf (pre ++ [e])).length ≤ 1 :=
    (trace_isPrefix hpre).length_le.trans honce
  have hlast : codesOf (pre ++ [e]) =
      codesOf pre ++ codes (exec present (.ok Presentation.opened) pre) e := by
    simp [codesOf, trace_append]
  rw [hlast, List.length_append] at hprefix
  generalize exec present (.ok Presentation.opened) pre = p at hrun hprefix ⊢
  cases p with
  | error c => trivial
  | ok s =>
      obtain ⟨hready, hcause⟩ : s.qr.Ready ∧
        (s.qr.dismissRequested = true → codesOf pre ≠ []) := hrun
      intro metadataObjects hdelivered hsome
      by_contra hdismiss
      -- the code that led to the dismissal, and the one delivered now
      have hfirst := List.length_pos_of_ne_nil (hcause (Bool.not_eq_false _ ▸ hdismiss))
      have hsecond : (codes (.ok s) e).length = 1 := by
        obtain ⟨code, hcode⟩ := Option.isSome_iff_exists.mp hsome
        have hbatch : s.delivered e = some metadataObjects := hdelivered
        rw [codes_eq_delivered hready, hbatch, Option.bind_some, hcode]
        rfl
      omega

/-- **One code.**  A presentation in which no batch with a code is delivered once
a dismissal was requested gives its delegate one code at most, and performs the
effects of that one scan.  When no batch is empty, so that only a code has the
scanner dismissed, this is also necessary. -/
theorem one_code_per_presentation (es : List ScannerEvent) :
    (Along present CodeBeforeDismissal (.ok Presentation.opened) es →
      OneScan (codesOf es) (performedOf es)) ∧
    (Along present NonemptyBatch (.ok Presentation.opened) es →
      (OneScan (codesOf es) (performedOf es) ↔
        Along present CodeBeforeDismissal (.ok Presentation.opened) es)) := by
  have hsound : Along present CodeBeforeDismissal (.ok Presentation.opened) es →
      OneScan (codesOf es) (performedOf es) := by
    intro hbefore
    have h0 : OneCodeInv (.ok Presentation.opened) [] :=
      ⟨Nat.zero_le 1, ready_opened, fun h => absurd rfl h⟩
    have hrun : OneCodeInv (presentationAfter es) (codesOf es) :=
      trace_inv_of_along oneCodeInv_step h0 hbefore
    exact { once := hrun.1, effects := performedOf_eq es }
  refine ⟨hsound, ?_⟩
  intro hnonempty
  constructor
  · intro hone
    exact codeBeforeDismissal_of_once hnonempty hone.once
  · exact hsound

/-- One place is scanned; the frame after it is captured before the first is
delivered, and the dismissal ends before its turn comes. -/
def scanOnce : List ScannerEvent :=
  [ .viewWillAppear, .capture [.machineReadableCode (some "Clue1")]
  , .capture [.machineReadableCode (some "Clue1")], .runMain
  , .viewWillDisappear, .dismissalEnds, .runMain ]

theorem one_code_per_presentation_scanOnce :
    OneScan (codesOf scanOnce) (performedOf scanOnce) :=
  (one_code_per_presentation scanOnce).1 (by decide)

/-- Both frames are delivered before the dismissal ends. -/
def twoFrames : List ScannerEvent :=
  [ .viewWillAppear, .capture [.machineReadableCode (some "Clue1")]
  , .capture [.machineReadableCode (some "Clue1")], .runMain, .runMain
  , .viewWillDisappear, .dismissalEnds ]

theorem twoFrames_scan_twice :
    ¬∀ es : List ScannerEvent, OneScan (codesOf es) (performedOf es) := by
  intro hclaim
  have honce := (hclaim twoFrames).once
  have htwice : codesOf twoFrames = ["Clue1", "Clue1"] := by decide
  rw [htwice] at honce
  exact absurd honce (by decide)

end ValentinesDay.Ports.ScannerQueue
