import ValentinesDay.Ports.HomePage
import ValentinesDay.Verified.Run

/-!
# The QR scanner

`metadataOutput` stops the capture session first and then decides what to do
with the batch of objects it was given.  Two of its exits return before the
dismissal.

The machine here is the controller alone: its callbacks may come at any time and
in any order.

## Main results

* `delivery_metadataOutput` — everything a batch can do.
* `performs_eq` — a call performs the scan of the code it hands over.
* `scanner_not_dead_iff` — the scanner is never left dead on screen exactly when
  no batch that reaches it there makes it return early.
-/

namespace ValentinesDay.Ports.Scanner

open ValentinesDay.Verified.Fallible
open ValentinesDay.Verified.Run
open ValentinesDay.Ports.Runtime
open ValentinesDay.Ports.Persistence
open ValentinesDay.Ports.HomePage

/-! ## The controller -/

/-- An `AVMetadataObject`.  A readable code need not have a string value. -/
inductive MetadataObject where
  | machineReadableCode (stringValue : Option String)
  | other
  deriving DecidableEq, Repr

/-- `AVCaptureSession` as far as the controller looks at it. -/
structure CaptureSession where
  isRunning : Bool
  hasMetadataOutput : Bool
  deriving DecidableEq, Repr

/-- How far `viewDidLoad` gets with the camera. -/
inductive CaptureSetup where
  | noDevice
  | inputFails
  | cannotAddInput
  | cannotAddOutput
  | complete
  deriving DecidableEq, Repr

/-- `UIAlertController` with its two texts. -/
structure UIAlert where
  title : String
  message : String
  deriving DecidableEq, Repr

/-- The controller `QrCode`. -/
structure QrCode where
  captureSession : Option CaptureSession
  /-- The weak reference to the delegate is not nil. -/
  hasDelegate : Bool
  alert : Option UIAlert
  /-- The view is between `viewWillAppear` and `viewWillDisappear`. -/
  onScreen : Bool
  dismissRequested : Bool
  deriving DecidableEq, Repr

/-- `QrCode()` before its view is loaded. -/
def QrCode.init (hasDelegate : Bool) : QrCode where
  captureSession := none
  hasDelegate := hasDelegate
  alert := none
  onScreen := false
  dismissRequested := false

/-- `QrCode.failed`. -/
def QrCode.failed (qr : QrCode) : QrCode :=
  { qr with
    alert := some
      { title := "Scanning not supported"
        message := "Your device does not support scanning a code from an item. Please use a device with a camera." }
    captureSession := none }

/-- `QrCode.viewDidLoad`, by how far the camera lets it get. -/
def QrCode.viewDidLoad (qr : QrCode) (setup : CaptureSetup) : QrCode :=
  let created : CaptureSession := { isRunning := false, hasMetadataOutput := false }
  match setup with
  | .noDevice => { qr with captureSession := some created }
  | .inputFails => { qr with captureSession := some created }
  | .cannotAddInput => qr.failed
  | .cannotAddOutput => qr.failed
  | .complete =>
      { qr with captureSession := some { isRunning := true, hasMetadataOutput := true } }

/-- `captureSession?.isRunning == true`. -/
def QrCode.isRunning (qr : QrCode) : Bool := qr.captureSession.any (·.isRunning)

/-- `captureSession?.startRunning()`. -/
def QrCode.startRunning (qr : QrCode) : QrCode :=
  { qr with captureSession := qr.captureSession.map ({ · with isRunning := true }) }

/-- `captureSession?.stopRunning()`. -/
def QrCode.stopRunning (qr : QrCode) : QrCode :=
  { qr with captureSession := qr.captureSession.map ({ · with isRunning := false }) }

/-- `QrCode.viewWillAppear`. -/
def QrCode.viewWillAppear (qr : QrCode) : QrCode :=
  let appeared := { qr with onScreen := true }
  if qr.captureSession.map (·.isRunning) = some false then appeared.startRunning
  else appeared

/-- `QrCode.viewWillDisappear`. -/
def QrCode.viewWillDisappear (qr : QrCode) : QrCode :=
  let disappeared := { qr with onScreen := false }
  if qr.captureSession.map (·.isRunning) = some true then disappeared.stopRunning
  else disappeared

/-- `dismiss(animated: true)`. -/
def QrCode.dismiss (qr : QrCode) : QrCode := { qr with dismissRequested := true }

/-- `QrCode.found`. -/
def QrCode.found (qr : QrCode) (code : String) : Except Crash (List Effect) :=
  if qr.hasDelegate then giveQRCodeValue code else .ok []

/-- `QrCode.metadataOutput`, with what the delegate asks for. -/
def QrCode.metadataOutput (qr : QrCode) (metadataObjects : List MetadataObject) :
    Except Crash (QrCode × List Effect) :=
  if qr.captureSession.isNone then .error (.unexpectedNil "captureSession")
  else
    let stopped := qr.stopRunning
    match metadataObjects.head? with
    | none => .ok (stopped.dismiss, [])
    | some .other => .ok (stopped, [])
    | some (.machineReadableCode none) => .ok (stopped, [])
    | some (.machineReadableCode (some stringValue)) => do
        let effects ← stopped.found stringValue
        return (stopped.dismiss, effects)

/-- The calls the system makes on the controller. -/
inductive QrEvent where
  | metadataOutput (metadataObjects : List MetadataObject)
  | viewWillAppear
  | viewWillDisappear
  deriving DecidableEq, Repr

/-- One call. -/
def QrCode.step (qr : QrCode) : QrEvent → Except Crash QrCode
  | .metadataOutput metadataObjects => do
      let result ← qr.metadataOutput metadataObjects
      return result.1
  | .viewWillAppear => .ok qr.viewWillAppear
  | .viewWillDisappear => .ok qr.viewWillDisappear

/-- The controller up to a crash. -/
abbrev step : Except Crash QrCode → QrEvent → Except Crash QrCode :=
  halting QrCode.step

/-- A controller that the home page opened on a working camera. -/
def QrCode.opened (hasDelegate : Bool) : QrCode :=
  (QrCode.init hasDelegate).viewDidLoad .complete

/-! ## What a batch does -/

/-- The string value of the first object, if that is a readable code. -/
def stringValue? (metadataObjects : List MetadataObject) : Option String :=
  match metadataObjects.head? with
  | some (.machineReadableCode stringValue) => stringValue
  | _ => none

/-- The callback gets to its end. -/
def Handled (metadataObjects : List MetadataObject) : Prop :=
  metadataObjects = [] ∨ (stringValue? metadataObjects).isSome

instance : DecidablePred Handled := fun metadataObjects => by
  unfold Handled
  infer_instance

@[simp] theorem dismissRequested_stopRunning (qr : QrCode) :
    qr.stopRunning.dismissRequested = qr.dismissRequested := rfl

theorem isRunning_stopRunning (qr : QrCode) : qr.stopRunning.isRunning = false := by
  unfold QrCode.isRunning QrCode.stopRunning
  cases qr.captureSession <;> rfl

theorem isSome_stopRunning (qr : QrCode) :
    qr.stopRunning.captureSession.isSome = qr.captureSession.isSome :=
  Option.isSome_map

/-- Everything a batch can do to a controller with a session. -/
inductive Delivery (qr : QrCode) : List MetadataObject →
    Except Crash (QrCode × List Effect) → Prop
  | empty : Delivery qr [] (.ok (qr.stopRunning.dismiss, []))
  | early {metadataObjects : List MetadataObject} (h : ¬Handled metadataObjects) :
      Delivery qr metadataObjects (.ok (qr.stopRunning, []))
  | found {metadataObjects : List MetadataObject} {code : String}
      {effects : List Effect} (hcode : stringValue? metadataObjects = some code)
      (hfound : qr.found code = .ok effects) :
      Delivery qr metadataObjects (.ok (qr.stopRunning.dismiss, effects))
  | crash {metadataObjects : List MetadataObject} {code : String} {c : Crash}
      (hcode : stringValue? metadataObjects = some code)
      (hfound : qr.found code = .error c) : Delivery qr metadataObjects (.error c)

theorem delivery_metadataOutput {qr : QrCode} (hsession : qr.captureSession.isSome)
    (metadataObjects : List MetadataObject) :
    Delivery qr metadataObjects (qr.metadataOutput metadataObjects) := by
  have hsome : qr.captureSession.isNone = false := by
    rw [Option.isNone_eq_false_iff]
    exact hsession
  simp only [QrCode.metadataOutput, hsome, Bool.false_eq_true, if_false]
  cases metadataObjects with
  | nil => exact .empty
  | cons first rest =>
      cases first with
      | other => exact .early (by simp [Handled, stringValue?])
      | machineReadableCode value =>
          cases value with
          | none => exact .early (by simp [Handled, stringValue?])
          | some code =>
              have hsame : qr.stopRunning.found code = qr.found code := rfl
              simp only [List.head?_cons, hsame]
              cases hfound : qr.found code with
              | error c => exact .crash rfl hfound
              | ok effects => exact .found rfl hfound

/-! ## Never dead on screen -/

/-- On screen the session runs, or the scanner is about to go. -/
def QrCode.Active (qr : QrCode) : Prop :=
  qr.onScreen = true → qr.isRunning = true ∨ qr.dismissRequested = true

instance (qr : QrCode) : Decidable qr.Active := by
  unfold QrCode.Active
  infer_instance

/-- The scanner is not dead on screen; a process that has ended shows none. -/
def NotDead : Except Crash QrCode → Prop
  | .ok qr => qr.Active
  | .error _ => True

/-- A batch that comes while the scanner is on screen, with no dismissal
requested, is empty or starts with a readable code that has a string value. -/
def HandledOnScreen : Except Crash QrCode → QrEvent → Prop
  | .ok qr, .metadataOutput metadataObjects =>
      qr.onScreen = true → qr.dismissRequested = false → Handled metadataObjects
  | _, _ => True

instance (p : Except Crash QrCode) : Decidable (NotDead p) := by
  cases p with
  | error c => exact .isTrue trivial
  | ok qr => exact inferInstanceAs (Decidable qr.Active)

instance (p : Except Crash QrCode) (e : QrEvent) : Decidable (HandledOnScreen p e) := by
  cases p with
  | error c => cases e <;> exact .isTrue trivial
  | ok qr =>
      cases e with
      | metadataOutput metadataObjects =>
          exact inferInstanceAs (Decidable (_ → _ → Handled metadataObjects))
      | viewWillAppear => exact .isTrue trivial
      | viewWillDisappear => exact .isTrue trivial

/-- A controller whose session was set up. -/
structure ScannerInv (qr : QrCode) : Prop where
  session : qr.captureSession.isSome
  active : qr.Active

/-- `ScannerInv` of a controller whose process is alive. -/
def LiveScannerInv : Except Crash QrCode → Prop := Ends ScannerInv (fun _ => True)

theorem scannerInv_opened (hasDelegate : Bool) :
    ScannerInv (QrCode.opened hasDelegate) where
  session := rfl
  active h := by cases h

section Inv

variable {qr : QrCode}

/-- A session that is set up runs once the view has appeared. -/
theorem isRunning_viewWillAppear (hsession : qr.captureSession.isSome) :
    qr.viewWillAppear.isRunning = true := by
  obtain ⟨session, hqr⟩ := Option.isSome_iff_exists.mp hsession
  unfold QrCode.viewWillAppear QrCode.isRunning QrCode.startRunning
  cases hrunning : session.isRunning <;> simp [hqr, hrunning]

theorem isSome_viewWillAppear :
    qr.viewWillAppear.captureSession.isSome = qr.captureSession.isSome := by
  unfold QrCode.viewWillAppear QrCode.startRunning
  split <;> simp

theorem isSome_viewWillDisappear :
    qr.viewWillDisappear.captureSession.isSome = qr.captureSession.isSome := by
  unfold QrCode.viewWillDisappear QrCode.stopRunning
  split <;> simp

theorem onScreen_viewWillDisappear : qr.viewWillDisappear.onScreen = false := by
  unfold QrCode.viewWillDisappear QrCode.stopRunning
  split <;> rfl

theorem ScannerInv.viewWillAppear (h : ScannerInv qr) :
    ScannerInv qr.viewWillAppear where
  session := isSome_viewWillAppear.trans h.session
  active _ := .inl (isRunning_viewWillAppear h.session)

theorem ScannerInv.viewWillDisappear (h : ScannerInv qr) :
    ScannerInv qr.viewWillDisappear where
  session := isSome_viewWillDisappear.trans h.session
  active hscreen := by
    rw [onScreen_viewWillDisappear] at hscreen
    cases hscreen

/-- With the dismissal requested the scanner is active whatever the session
does. -/
theorem ScannerInv.stopped (h : ScannerInv qr)
    (hdismiss : qr.onScreen = true → qr.dismissRequested = true) :
    ScannerInv qr.stopRunning where
  session := (isSome_stopRunning qr).trans h.session
  active hscreen := .inr (hdismiss hscreen)

theorem ScannerInv.dismissed (h : ScannerInv qr) :
    ScannerInv qr.stopRunning.dismiss where
  session := (isSome_stopRunning qr).trans h.session
  active _ := .inr rfl

end Inv

/-- **Step lemma.**  View events, and batches that are handled on screen, keep
the scanner active. -/
theorem scannerInv_step (p : Except Crash QrCode) (e : QrEvent)
    (h : LiveScannerInv p) (he : HandledOnScreen p e) : LiveScannerInv (step p e) := by
  refine ends_halting h ?_
  rintro qr rfl hqr
  cases e with
  | viewWillAppear => exact hqr.viewWillAppear
  | viewWillDisappear => exact hqr.viewWillDisappear
  | metadataOutput metadataObjects =>
      have hdelivery := delivery_metadataOutput hqr.session metadataObjects
      rw [QrCode.step]
      generalize qr.metadataOutput metadataObjects = result at hdelivery ⊢
      cases hdelivery with
      | empty => exact hqr.dismissed
      | found hcode hfound => exact hqr.dismissed
      | crash hcode hfound => trivial
      | early hearly =>
          -- an early return is harmless off screen and during a dismissal
          refine hqr.stopped ?_
          intro hscreen
          by_contra hdismiss
          exact hearly (he hscreen (Bool.not_eq_true _ ▸ hdismiss))

/-- An early return on screen leaves the scanner dead there. -/
theorem handledOnScreen_of_notDead_step (p : Except Crash QrCode) (e : QrEvent)
    (h : LiveScannerInv p) (hstep : NotDead (step p e)) : HandledOnScreen p e := by
  cases p with
  | error c => cases e <;> trivial
  | ok qr =>
      have hqr : ScannerInv qr := h
      cases e with
      | viewWillAppear => trivial
      | viewWillDisappear => trivial
      | metadataOutput metadataObjects =>
          intro hscreen hdismiss
          by_contra hearly
          have hdelivery := delivery_metadataOutput hqr.session metadataObjects
          rw [step, halting_ok, QrCode.step] at hstep
          generalize qr.metadataOutput metadataObjects = result at hdelivery hstep
          cases hdelivery with
          | empty => exact hearly (.inl rfl)
          | found hcode hfound =>
              exact hearly (.inr (Option.isSome_iff_exists.mpr ⟨_, hcode⟩))
          | crash hcode hfound =>
              exact hearly (.inr (Option.isSome_iff_exists.mpr ⟨_, hcode⟩))
          | early hnot =>
              have hactive : qr.stopRunning.Active := hstep
              rcases hactive hscreen with hrunning | hdismissed
              · rw [isRunning_stopRunning] at hrunning
                cases hrunning
              · rw [dismissRequested_stopRunning, hdismiss] at hdismissed
                cases hdismissed

/-- **When the scanner is never dead.**  From a controller whose session was set
up, through callbacks and view events in any order, the scanner on screen always
has a running session or a dismissal under way exactly when every batch that
meets it on screen, before a dismissal was requested, is empty or starts with a
readable code that has a string value. -/
theorem scanner_not_dead_iff (hasDelegate : Bool) (es : List QrEvent) :
    Throughout step NotDead (.ok (QrCode.opened hasDelegate)) es ↔
      Along step HandledOnScreen (.ok (QrCode.opened hasDelegate)) es := by
  have hactive : ∀ p, LiveScannerInv p → NotDead p := by
    intro p h
    cases p with
    | error c => trivial
    | ok qr => exact ScannerInv.active h
  have h0 : LiveScannerInv (.ok (QrCode.opened hasDelegate)) :=
    scannerInv_opened hasDelegate
  exact throughout_iff_along hactive scannerInv_step handledOnScreen_of_notDead_step
    h0 es

/-- A code whose content is no string, such as one with a binary payload. -/
def binaryCode : List QrEvent :=
  [.viewWillAppear, .metadataOutput [.machineReadableCode none]]

theorem binaryCode_leaves_scanner_dead :
    ¬∀ (hasDelegate : Bool) (es : List QrEvent),
      Throughout step NotDead (.ok (QrCode.opened hasDelegate)) es := by
  intro hclaim
  exact absurd (hclaim true binaryCode) (by decide)

/-! ## What a call hands over -/

/-- The session produces batches. -/
def QrCode.Captures (qr : QrCode) : Prop :=
  qr.captureSession.any (fun session => session.isRunning && session.hasMetadataOutput) = true

instance (qr : QrCode) : Decidable qr.Captures := by
  unfold QrCode.Captures
  infer_instance

/-- The strings a call gives to `giveQRCodeValue` of the delegate. -/
def QrCode.handsOver (qr : QrCode) : QrEvent → List String
  | .metadataOutput metadataObjects =>
      if qr.hasDelegate then (stringValue? metadataObjects).toList else []
  | .viewWillAppear => []
  | .viewWillDisappear => []

/-- What the delegate asks for in a call. -/
def QrCode.performs (qr : QrCode) : QrEvent → List Effect
  | .metadataOutput metadataObjects =>
      match qr.metadataOutput metadataObjects with
      | .ok result => result.2
      | .error _ => []
  | .viewWillAppear => []
  | .viewWillDisappear => []

/-- The effects of one scan; a rejected string has none. -/
def scanEffects (code : String) : List Effect :=
  match giveQRCodeValue code with
  | .ok effects => effects
  | .error _ => []

/-- What a call performs are the effects of the code it hands over. -/
theorem performs_eq {qr : QrCode} (hsession : qr.captureSession.isSome)
    (call : QrEvent) : qr.performs call = (qr.handsOver call).flatMap scanEffects := by
  cases call with
  | viewWillAppear => rfl
  | viewWillDisappear => rfl
  | metadataOutput metadataObjects =>
      have hdelivery := delivery_metadataOutput hsession metadataObjects
      unfold QrCode.performs QrCode.handsOver
      simp only
      generalize qr.metadataOutput metadataObjects = result at hdelivery ⊢
      cases hdelivery with
      | empty => simp [stringValue?]
      | early hearly =>
          have hnone : stringValue? metadataObjects = none := by
            by_contra hsome
            exact hearly (.inr (Option.isSome_iff_ne_none.mpr hsome))
          simp [hnone]
      | found hcode hfound =>
          unfold QrCode.found at hfound
          by_cases hdelegate : qr.hasDelegate = true
          · rw [if_pos hdelegate] at hfound
            simp [hcode, hdelegate, scanEffects, hfound]
          · rw [if_neg hdelegate] at hfound
            cases hfound
            simp [hdelegate]
      | crash hcode hfound =>
          unfold QrCode.found at hfound
          by_cases hdelegate : qr.hasDelegate = true
          · rw [if_pos hdelegate] at hfound
            simp [hcode, hdelegate, scanEffects, hfound]
          · rw [if_neg hdelegate] at hfound
            cases hfound

/-- A controller with a session and the home page as its delegate. -/
structure QrCode.Ready (qr : QrCode) : Prop where
  session : qr.captureSession.isSome
  delegate : qr.hasDelegate = true

/-- The controllers differ in nothing that a scan depends on. -/
structure QrCode.Alike (qr qr' : QrCode) : Prop where
  session : qr'.captureSession.isSome = qr.captureSession.isSome
  delegate : qr'.hasDelegate = qr.hasDelegate
  dismissRequested : qr'.dismissRequested = qr.dismissRequested

theorem QrCode.Alike.refl (qr : QrCode) : qr.Alike qr := ⟨rfl, rfl, rfl⟩

theorem alike_viewWillAppear (qr : QrCode) : qr.Alike qr.viewWillAppear where
  session := isSome_viewWillAppear
  delegate := by
    unfold QrCode.viewWillAppear QrCode.startRunning
    split <;> rfl
  dismissRequested := by
    unfold QrCode.viewWillAppear QrCode.startRunning
    split <;> rfl

theorem alike_viewWillDisappear (qr : QrCode) : qr.Alike qr.viewWillDisappear where
  session := isSome_viewWillDisappear
  delegate := by
    unfold QrCode.viewWillDisappear QrCode.stopRunning
    split <;> rfl
  dismissRequested := by
    unfold QrCode.viewWillDisappear QrCode.stopRunning
    split <;> rfl

theorem alike_stopRunning (qr : QrCode) : qr.Alike qr.stopRunning where
  session := isSome_stopRunning qr
  delegate := rfl
  dismissRequested := rfl

theorem QrCode.Ready.alike {qr qr' : QrCode} (h : qr.Ready) (halike : qr.Alike qr') :
    qr'.Ready where
  session := halike.session.trans h.session
  delegate := halike.delegate.trans h.delegate

theorem QrCode.Ready.dismissed {qr : QrCode} (h : qr.Ready) :
    qr.stopRunning.dismiss.Ready where
  session := (isSome_stopRunning qr).trans h.session
  delegate := h.delegate

end ValentinesDay.Ports.Scanner
