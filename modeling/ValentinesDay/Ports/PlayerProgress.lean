import Mathlib.Data.Set.Insert
import ValentinesDay.Ports.Lifecycle
import ValentinesDay.Verified.Fallible
import ValentinesDay.Verified.Replay
import ValentinesDay.Verified.Run

/-!
# The player's progress

What the app is for, stated without it: `Progress` is a set of raised flags and
the place scanned last, and an `Action` of the player raises a flag or moves
that place.  `Reflects` says that a store is the initial one with a progress
written into it.

`refines_step` connects the two: every event of the app, on whatever copies of
the store its screens act, changes the store as the player's actions change the
progress.  A run of the app is therefore known from the player's actions alone.

## Main results

* `progress_exact` — the store after any run, and its independence of the order
  of actions on different clues.
-/

namespace ValentinesDay.Ports.PlayerProgress

open ValentinesDay.Verified.Fallible
open ValentinesDay.Verified.Run
open ValentinesDay.Verified.Replay
open ValentinesDay.Ports.Runtime
open ValentinesDay.Ports.Firestore
open ValentinesDay.Ports.Persistence
open ValentinesDay.Ports.HomePage
open ValentinesDay.Ports.Riddle
open ValentinesDay.Ports.Lifecycle

/-! ## The abstract model -/

/-- The two flags of a clue. -/
inductive Flag where
  | unlocked
  | solved
  deriving DecidableEq, Repr

/-- What the player does for the hunt. -/
inductive Action where
  | scanned (clue : String)
  | checked (clue : String) (right : Bool)
  deriving DecidableEq, Repr

/-- The clue the action is on. -/
def Action.clue : Action → String
  | .scanned clue => clue
  | .checked clue _ => clue

/-- The flag an action raises. -/
def Action.raises : Action → Option (Flag × String)
  | .scanned clue => some (.unlocked, clue)
  | .checked clue right => if right then some (.solved, clue) else none

/-- The place an action moves the player to; `Clue10` is the end of the hunt
and has no path to it. -/
def Action.visits : Action → Option String
  | .scanned clue => if clue = "Clue10" then none else some clue
  | .checked _ _ => none

/-- What the player has reached, without stores or versions. -/
structure Progress where
  raised : Set (Flag × String)
  lastScanned : Option String

/-- The hunt before the first scan. -/
def Progress.start : Progress where
  raised := ∅
  lastScanned := none

/-- One action more. -/
def Progress.act (p : Progress) (a : Action) : Progress where
  raised := { x | x ∈ p.raised ∨ a.raises = some x }
  lastScanned := a.visits.or p.lastScanned

/-- The progress the actions make. -/
def Progress.after (as : List Action) : Progress := as.foldl Progress.act .start

theorem mem_raised_after {as : List Action} {x : Flag × String} :
    x ∈ (Progress.after as).raised ↔ ∃ a ∈ as, a.raises = some x := by
  have hact : ∀ (p : Progress) (a : Action),
      x ∈ (p.act a).raised ↔ x ∈ p.raised ∨ a.raises = some x := fun _ _ => Iff.rfl
  have hflag := foldl_flag (fun p => x ∈ p.raised) (fun a => a.raises = some x)
    hact as Progress.start
  rw [Progress.after, hflag]
  exact or_iff_right (Set.notMem_empty x)

theorem lastScanned_after (as : List Action) :
    (Progress.after as).lastScanned = (as.filterMap Action.visits).getLast? := by
  have hact : ∀ (p : Progress) (a : Action),
      (p.act a).lastScanned = a.visits.or p.lastScanned := fun _ _ => rfl
  have hregister := foldl_register hact as Progress.start
  rw [Progress.after, hregister]
  exact Option.or_none

theorem act_scanned (p : Progress) (clue : String) :
    p.act (.scanned clue) =
      { raised := { x | x ∈ p.raised ∨ (Flag.unlocked, clue) = x }
        lastScanned := if clue = "Clue10" then p.lastScanned else some clue } := by
  unfold Progress.act Action.raises Action.visits
  by_cases hclue : clue = "Clue10" <;> simp [hclue]

theorem act_checked_right (p : Progress) (clue : String) :
    p.act (.checked clue true) =
      { p with raised := { x | x ∈ p.raised ∨ (Flag.solved, clue) = x } } := by
  simp [Progress.act, Action.raises, Action.visits]

theorem act_checked_wrong (p : Progress) (clue : String) :
    p.act (.checked clue false) = p := by
  simp [Progress.act, Action.raises, Action.visits]

theorem unlocked_after {as : List Action} {clue : String} :
    (Flag.unlocked, clue) ∈ (Progress.after as).raised ↔ .scanned clue ∈ as := by
  rw [mem_raised_after]
  constructor
  · rintro ⟨a, ha, hraises⟩
    cases a with
    | scanned clue' =>
        simp only [Action.raises, Option.some.injEq, Prod.mk.injEq, true_and] at hraises
        rwa [← hraises]
    | checked clue' right =>
        cases right <;> simp [Action.raises] at hraises
  · intro ha
    exact ⟨_, ha, rfl⟩

theorem solved_after {as : List Action} {clue : String} :
    (Flag.solved, clue) ∈ (Progress.after as).raised ↔ .checked clue true ∈ as := by
  rw [mem_raised_after]
  constructor
  · rintro ⟨a, ha, hraises⟩
    cases a with
    | scanned clue' => simp [Action.raises] at hraises
    | checked clue' right =>
        cases right with
        | false => simp [Action.raises] at hraises
        | true =>
            simp only [Action.raises, if_true, Option.some.injEq, Prod.mk.injEq,
              true_and] at hraises
            rwa [← hraises]
  · intro ha
    exact ⟨_, ha, rfl⟩

/-! ## A store that holds a progress -/

/-- The field that keeps the flag. -/
def Flag.field : Flag → String
  | .unlocked => "Locked"
  | .solved => "solved"

/-- The value the app writes to raise the flag. -/
def Flag.value : Flag → Value
  | .unlocked => .bool false
  | .solved => .bool true

theorem Flag.field_injective {a b : Flag} (h : a.field = b.field) : a = b := by
  cases a <;> cases b <;> simp [Flag.field] at h ⊢

/-- The document `last-path/Last` once a place has been visited. -/
def lastDocument (store0 : Store) : Option String → Option Fields
  | none => store0.lookup lastPathKey
  | some name => some (Fields.ofList [("last-path", .string name)])

/-- `store` is `store0` with the progress written into it. -/
structure Reflects (store0 : Store) (p : Progress) (store : Store) : Prop where
  raised : ∀ flag clue, (flag, clue) ∈ p.raised →
    field store (clueKey clue) flag.field = some flag.value
  last : store.lookup lastPathKey = lastDocument store0 p.lastScanned
  documents : ∀ key, key ≠ lastPathKey →
    (store.lookup key).isSome = (store0.lookup key).isSome
  others : ∀ key name, key ≠ lastPathKey →
    (∀ flag clue, (flag, clue) ∈ p.raised →
      ¬(key = clueKey clue ∧ name = flag.field)) →
    field store key name = field store0 key name

theorem reflects_start (store0 : Store) :
    Reflects store0 Progress.start store0 where
  raised _ _ h := False.elim h
  last := rfl
  documents _ _ := rfl
  others _ _ _ _ := rfl

section Reflects

variable {store0 store : Store} {p : Progress}

/-- Visiting a place replaces `last-path/Last` and nothing else. -/
theorem Reflects.visit (h : Reflects store0 p store) (name : String) :
    Reflects store0 { p with lastScanned := some name }
      ((Write.setData lastPathKey [("last-path", .string name)]).apply store) where
  raised flag clue hmem := by
    rw [field_setData_ne store (clueKey_ne_lastPathKey clue)]
    exact h.raised flag clue hmem
  last := lookup_setData_self store lastPathKey _
  documents key hkey := by
    rw [lookup_setData_ne store hkey]
    exact h.documents key hkey
  others key name hkey hnot := by
    rw [field_setData_ne store hkey]
    exact h.others key name hkey hnot

/-- Raising a flag of a clue that exists writes that one field. -/
theorem Reflects.raise (h : Reflects store0 p store) {clue : String}
    (hclue : IsClue store0 clue) (flag : Flag) :
    Reflects store0 { p with raised := { x | x ∈ p.raised ∨ (flag, clue) = x } }
      ((Write.updateData (clueKey clue) flag.field flag.value).apply store) where
  raised flag' clue' hmem := by
    by_cases hsame : (flag, clue) = (flag', clue')
    · cases hsame
      refine field_updateData_self store _ _ _ ?_
      rw [h.documents _ (clueKey_ne_lastPathKey clue)]
      exact hclue.found
    · have hne : clueKey clue' ≠ clueKey clue ∨ flag'.field ≠ flag.field := by
        by_cases hkey : clueKey clue' = clueKey clue
        · right
          intro hfield
          apply hsame
          rw [clueKey_injective hkey, Flag.field_injective hfield]
        · exact .inl hkey
      rw [field_updateData_ne store hne]
      exact h.raised flag' clue' (hmem.resolve_right hsame)
  last := by
    rw [lookup_updateData_ne store (clueKey_ne_lastPathKey clue).symm]
    exact h.last
  documents key hkey := by
    rw [isSome_lookup_updateData]
    exact h.documents key hkey
  others key name hkey hnot := by
    have hne : key ≠ clueKey clue ∨ name ≠ flag.field := by
      have hself := hnot flag clue (.inr rfl)
      by_cases heq : key = clueKey clue
      · exact .inr fun hname => hself ⟨heq, hname⟩
      · exact .inl heq
    rw [field_updateData_ne store hne]
    exact h.others key name hkey fun flag' clue' hmem =>
      hnot flag' clue' (.inl hmem)

/-- A flag reads as raised exactly when it was at the start or has been raised
since. -/
theorem Reflects.field_eq (h : Reflects store0 p store) (flag : Flag)
    (clue : String) :
    ((flag, clue) ∈ p.raised ∧
        field store (clueKey clue) flag.field = some flag.value) ∨
      ((flag, clue) ∉ p.raised ∧
        field store (clueKey clue) flag.field =
          field store0 (clueKey clue) flag.field) := by
  by_cases hmem : (flag, clue) ∈ p.raised
  · exact .inl ⟨hmem, h.raised flag clue hmem⟩
  · refine .inr ⟨hmem, h.others _ _ (clueKey_ne_lastPathKey clue) ?_⟩
    rintro flag' clue' hmem' ⟨hkey, hfield⟩
    rw [clueKey_injective hkey, Flag.field_injective hfield] at hmem
    exact hmem hmem'

theorem Reflects.unlocked_iff (h : Reflects store0 p store) (clue : String) :
    Unlocked store clue ↔ Unlocked store0 clue ∨ (Flag.unlocked, clue) ∈ p.raised := by
  unfold Unlocked
  rcases h.field_eq .unlocked clue with ⟨hmem, hfield⟩ | ⟨hmem, hfield⟩
  · simp only [Flag.field] at hfield
    simp [hfield, hmem, Flag.value, Value.asBool]
  · simp only [Flag.field] at hfield
    simp [hfield, hmem]

theorem Reflects.solved_iff (h : Reflects store0 p store) (clue : String) :
    Solved store clue ↔ Solved store0 clue ∨ (Flag.solved, clue) ∈ p.raised := by
  unfold Solved
  rcases h.field_eq .solved clue with ⟨hmem, hfield⟩ | ⟨hmem, hfield⟩
  · simp only [Flag.field] at hfield
    simp [hfield, hmem, Flag.value, Value.asBool]
  · simp only [Flag.field] at hfield
    simp [hfield, hmem]

theorem Reflects.isClue_iff (h : Reflects store0 p store) (clue : String) :
    IsClue store clue ↔ IsClue store0 clue := by
  have hsame := h.documents (clueKey clue) (clueKey_ne_lastPathKey clue)
  constructor
  · intro hclue
    exact { id := hclue.id, found := hsame ▸ hclue.found }
  · intro hclue
    exact { id := hclue.id, found := hsame.symm ▸ hclue.found }

end Reflects

/-! ## The app refines the model -/

/-- The event names only clues of the store. -/
def ExistingClue (store0 : Store) : AppEvent → Prop
  | .scan value => IsClue store0 value
  | .openClue clueNumber => ∃ number ∈ clueNumber, IsClue store0 number
  | _ => True

instance (store0 : Store) : DecidablePred (ExistingClue store0) := fun e => by
  cases e <;> unfold ExistingClue <;> infer_instance

/-- What the player does by an event.  A check is right when the text equals
the answer of the last snapshot given to the screen. -/
def actions (app : App) (e : AppEvent) : List Action :=
  match app.process, e with
  | .ok _, .scan value => [.scanned value]
  | .ok s, .checkAnswer view =>
      match s.openClues[view]? with
      | none => []
      | some c =>
          (c.view.clueNumber.map fun number =>
            Action.checked number
              (decide (c.delivered.bind (·.string "answer") =
                some c.view.passKeyField))).toList
  | _, _ => []

/-- A screen on an existing clue whose stored answer is that of the last
snapshot it was given. -/
structure Genuine (store0 : Store) (c : OpenClue) : Prop where
  clue : ∃ number, c.view.clueNumber = some number ∧ IsClue store0 number
  answer : c.view.answer = c.delivered.bind (·.string "answer")

/-- The store reflects the progress, and the screens that may write to it know
what they show. -/
structure Refines (store0 : Store) (app : App) (p : Progress) : Prop where
  store : Reflects store0 p app.server.current
  views : ∀ s, app.process = .ok s → ∀ c ∈ s.openClues, Genuine store0 c

theorem refines_launched (store0 : Store) :
    Refines store0 (App.launched store0) Progress.start where
  store := reflects_start store0
  views s hs := by
    cases hs
    simp [Session.launched]

section Writes

variable {store0 : Store} {server : Server} {p : Progress}

theorem reflects_scan (h : Reflects store0 p server.current) {value : String}
    (hclue : IsClue store0 value) :
    Reflects store0 (p.act (.scanned value))
      (server.performAll (giveQRCodeValue value)).current := by
  rw [act_scanned]
  by_cases hne : value = "Clue10"
  · subst hne
    rw [performAll_giveQRCodeValue_clue10, Server.current_write, if_pos rfl]
    exact h.raise hclue .unlocked
  · rw [performAll_giveQRCodeValue hne (document_clues hclue.id),
      Server.current_write, Server.current_write, if_neg hne]
    exact (h.visit value).raise hclue .unlocked

theorem reflects_check (h : Reflects store0 p server.current) {c : OpenClue}
    (hc : Genuine store0 c) {number : String}
    (hnumber : c.view.clueNumber = some number) :
    Reflects store0
      (p.act (.checked number
        (decide (c.delivered.bind (·.string "answer") = some c.view.passKeyField))))
      (server.performAll (checkAnswer c.view)).current := by
  obtain ⟨number', hnumber', hclue⟩ := hc.clue
  rw [hnumber] at hnumber'
  cases hnumber'
  rw [performAll_checkAnswer hnumber (document_clues hclue.id), ← hc.answer]
  by_cases hright : c.view.answer = some c.view.passKeyField
  · rw [if_pos hright, decide_eq_true hright, act_checked_right,
      Server.current_write]
    exact h.raise hclue .solved
  · rw [if_neg hright, decide_eq_false hright, act_checked_wrong]
    exact h

end Writes

section Views

variable {store0 : Store} {bundle : InstalledBundle} {base : BaseStyle}
  {server : Server} {s s' : Session}

theorem openClues_onHome {e : HomeEvent} (h : s.onHome bundle base e = .ok s') :
    s'.openClues = s.openClues := by
  simp only [Session.onHome, bind_eq_ok_iff, pure_eq_ok, Except.ok.injEq] at h
  obtain ⟨home, -, rfl⟩ := h
  rfl

theorem genuine_present {number : String} (hclue : IsClue store0 number)
    {c : OpenClue} (h : OpenClue.present (some number) = .ok c) :
    Genuine store0 c := by
  simp only [OpenClue.present, listenerRef, document_clues hclue.id] at h
  cases h
  exact { clue := ⟨number, rfl, hclue⟩, answer := rfl }

theorem genuine_deliver {version : Option Nat} {c c' : OpenClue}
    (hc : Genuine store0 c) (h : c.deliver server version = .ok c') :
    Genuine store0 c' := by
  unfold OpenClue.deliver at h
  cases hlistener : c.listener with
  | none =>
      rw [hlistener] at h
      cases h
      exact hc
  | some ref =>
      simp only [hlistener, bind_eq_ok_iff, pure_eq_ok, Except.ok.injEq] at h
      obtain ⟨view, hriddle, rfl⟩ := h
      obtain ⟨data, hresponse, hupdated⟩ := updated_of_getRiddle_ok hriddle
      obtain ⟨number, hnumber, hclue⟩ := hc.clue
      refine { clue := ⟨number, hupdated.clueNumber.trans hnumber, hclue⟩, answer := ?_ }
      rw [hresponse]
      exact hupdated.answer

theorem genuine_set {view : Nat} {c : OpenClue}
    (hs : ∀ c ∈ s.openClues, Genuine store0 c) (hc : Genuine store0 c) :
    ∀ c' ∈ s.openClues.set view c, Genuine store0 c' := by
  intro c' hc'
  rcases List.mem_or_eq_of_mem_set hc' with hmem | heq
  · exact hs c' hmem
  · rw [heq]
    exact hc

theorem genuine_step (hs : ∀ c ∈ s.openClues, Genuine store0 c) {e : AppEvent}
    (he : ExistingClue store0 e) (h : s.step bundle base server e = .ok s') :
    ∀ c ∈ s'.openClues, Genuine store0 c := by
  have hhome : ∀ {e : HomeEvent}, s.onHome bundle base e = .ok s' →
      ∀ c ∈ s'.openClues, Genuine store0 c := by
    intro e honHome
    rw [openClues_onHome honHome]
    exact hs
  cases e with
  | launch =>
      cases h
      simp [Session.launched]
  | scan value => exact hhome h
  | lastPathArrives version => exact hhome h
  | runGlobal block => exact hhome h
  | runMain => exact hhome h
  | didFinishLoadingStyle => exact hhome h
  | openClue clueNumber =>
      obtain ⟨number, rfl, hclue⟩ := he
      simp only [Session.step, bind_eq_ok_iff, pure_eq_ok, Except.ok.injEq] at h
      obtain ⟨c, hpresent, rfl⟩ := h
      intro c' hc'
      rcases List.mem_append.mp hc' with hmem | hmem
      · exact hs c' hmem
      · rw [List.mem_singleton.mp hmem]
        exact genuine_present hclue hpresent
  | deliver view version =>
      cases hview : s.openClues[view]? with
      | none =>
          simp only [Session.step, hview] at h
          cases h
          exact hs
      | some c =>
          simp only [Session.step, hview, bind_eq_ok_iff, pure_eq_ok,
            Except.ok.injEq] at h
          obtain ⟨c', hdeliver, rfl⟩ := h
          have hc := hs c (List.mem_of_getElem? hview)
          exact genuine_set hs (genuine_deliver hc hdeliver)
  | edit view text =>
      cases hview : s.openClues[view]? with
      | none =>
          simp only [Session.step, hview] at h
          cases h
          exact hs
      | some c =>
          simp only [Session.step, hview] at h
          cases h
          have hc := hs c (List.mem_of_getElem? hview)
          exact genuine_set hs { clue := hc.clue, answer := hc.answer }
  | checkAnswer view =>
      cases hview : s.openClues[view]? with
      | none =>
          simp only [Session.step, hview] at h
          cases h
          exact hs
      | some c =>
          simp only [Session.step, hview, bind_eq_ok_iff, pure_eq_ok,
            Except.ok.injEq] at h
          obtain ⟨effects, -, rfl⟩ := h
          exact hs

end Views

section Run

variable {bundle : InstalledBundle} {base : BaseStyle} {store0 : Store}

/-- **Step lemma.**  An event changes the store as the player's actions change
the progress. -/
theorem refines_step (app : App) (e : AppEvent) (p : Progress)
    (h : Refines store0 app p) (he : ExistingClue store0 e) :
    Refines store0 (app.step bundle base e)
      ((actions app e).foldl Progress.act p) := by
  have hquiet : app.effects e = .ok [] → actions app e = [] →
      Reflects store0 ((actions app e).foldl Progress.act p)
        (app.step bundle base e).server.current := by
    intro heffects hactions
    rw [step_server_of_no_effects heffects, hactions]
    exact h.store
  refine { store := ?_, views := ?_ }
  · cases hprocess : app.process with
    | error c =>
        exact hquiet (by simp only [App.effects, hprocess])
          (by simp only [actions, hprocess])
    | ok s =>
        cases e with
        | scan value =>
            simp only [App.step, App.effects, actions, hprocess]
            exact reflects_scan h.store he
        | checkAnswer view =>
            cases hview : s.openClues[view]? with
            | none =>
                exact hquiet (by simp only [App.effects, hprocess, hview])
                  (by simp only [actions, hprocess, hview])
            | some c =>
                have hc := h.views s hprocess c (List.mem_of_getElem? hview)
                obtain ⟨number, hnumber, -⟩ := hc.clue
                simp only [App.step, App.effects, actions, hprocess, hview,
                  hnumber]
                exact reflects_check h.store hc hnumber
        | _ =>
            exact hquiet (by simp only [App.effects, hprocess])
              (by simp only [actions, hprocess])
  · intro s' hs'
    change app.nextProcess bundle base e = .ok s' at hs'
    cases hprocess : app.process with
    | error c =>
        by_cases hlaunch : e = .launch
        · rw [hlaunch, nextProcess_launch] at hs'
          cases hs'
          simp [Session.launched]
        · rw [nextProcess_error hprocess hlaunch] at hs'
          cases hs'
    | ok s =>
        rw [nextProcess_ok hprocess] at hs'
        exact genuine_step (h.views s hprocess) he hs'

/-- What the player did in a run from a first launch. -/
def playerActions (bundle : InstalledBundle) (base : BaseStyle) (store0 : Store)
    (es : List AppEvent) : List Action :=
  trace (App.step bundle base) actions (App.launched store0) es

/-- The app after a run from a first launch. -/
def appAfter (bundle : InstalledBundle) (base : BaseStyle) (store0 : Store)
    (es : List AppEvent) : App :=
  exec (App.step bundle base) (App.launched store0) es

/-- **Run lemma.**  The store holds the progress of the player's actions. -/
theorem reflects_run {es : List AppEvent} (hes : ∀ e ∈ es, ExistingClue store0 e) :
    Reflects store0 (Progress.after (playerActions bundle base store0 es))
      (appAfter bundle base store0 es).server.current := by
  have hC : Along (App.step bundle base) (fun _ e => ExistingClue store0 e)
      (App.launched store0) es := along_event_iff.mpr hes
  have hrun : Refines store0 (appAfter bundle base store0 es)
      (Progress.after (playerActions bundle base store0 es)) :=
    exec_refines refines_step (refines_launched store0) hC
  exact hrun.store

end Run

/-! ## Progress is exactly what the player did -/

/-- The name scanned last other than `Clue10`. -/
def lastScanned (as : List Action) : Option String :=
  (as.filterMap Action.visits).getLast?

/-- `store` differs from `store0` by the actions and by nothing else.  The one
document the app replaces, `last-path/Last`, keeps no other field. -/
structure ProgressExact (store0 store : Store) (as : List Action) : Prop where
  unlocked : ∀ clue, IsClue store0 clue →
    (Unlocked store clue ↔ Unlocked store0 clue ∨ .scanned clue ∈ as)
  solved : ∀ clue, IsClue store0 clue →
    (Solved store clue ↔ Solved store0 clue ∨ .checked clue true ∈ as)
  last : store.lookup lastPathKey = lastDocument store0 (lastScanned as)
  others : ∀ key name, key ≠ lastPathKey →
    (∀ clue, key = clueKey clue → name = "Locked" → .scanned clue ∉ as) →
    (∀ clue, key = clueKey clue → name = "solved" → .checked clue true ∉ as) →
    field store key name = field store0 key name
  documents : ∀ key, key ≠ lastPathKey →
    (store.lookup key).isSome = (store0.lookup key).isSome

theorem Reflects.exact {store0 store : Store} {as : List Action}
    (h : Reflects store0 (Progress.after as) store) :
    ProgressExact store0 store as where
  unlocked clue _ := by rw [h.unlocked_iff clue, unlocked_after]
  solved clue _ := by rw [h.solved_iff clue, solved_after]
  last := by rw [h.last, lastScanned_after]; rfl
  others key name hkey hlocked hsolved := by
    refine h.others key name hkey ?_
    rintro flag clue hmem ⟨hclue, hname⟩
    cases flag with
    | unlocked => exact hlocked clue hclue hname (unlocked_after.mp hmem)
    | solved => exact hsolved clue hclue hname (solved_after.mp hmem)
  documents := h.documents

/-- **Progress.**  After any run on existing clues the store is the initial one
changed by the player's scans and right answers; and another run in which the
player did the same to each clue ends with the same flags. -/
theorem progress_exact (bundle : InstalledBundle) (base : BaseStyle)
    (store0 : Store) (es : List AppEvent) (hes : ∀ e ∈ es, ExistingClue store0 e) :
    ProgressExact store0 (appAfter bundle base store0 es).server.current
      (playerActions bundle base store0 es) ∧
    ∀ es', (∀ e ∈ es', ExistingClue store0 e) →
      (∀ clue, (playerActions bundle base store0 es).filter (·.clue = clue) =
        (playerActions bundle base store0 es').filter (·.clue = clue)) →
      ∀ clue,
        (Unlocked (appAfter bundle base store0 es).server.current clue ↔
          Unlocked (appAfter bundle base store0 es').server.current clue) ∧
        (Solved (appAfter bundle base store0 es).server.current clue ↔
          Solved (appAfter bundle base store0 es').server.current clue) := by
  have hrun : Reflects store0 (Progress.after (playerActions bundle base store0 es))
      (appAfter bundle base store0 es).server.current := reflects_run hes
  refine ⟨hrun.exact, ?_⟩
  intro es' hes' hsame clue
  have hrun' : Reflects store0
      (Progress.after (playerActions bundle base store0 es'))
      (appAfter bundle base store0 es').server.current := reflects_run hes'
  have hmem := mem_iff_of_filter_eq hsame
  rw [hrun.unlocked_iff, hrun'.unlocked_iff, hrun.solved_iff, hrun'.solved_iff,
    unlocked_after, unlocked_after, solved_after, solved_after, hmem, hmem]
  exact ⟨Iff.rfl, Iff.rfl⟩

/-- Two clues of a hunt and a `last-path` with a field of its own. -/
def huntStore : Store :=
  (((∅ : Store).insert (clueKey "Clue1")
      (Fields.ofList [("Locked", .bool true), ("solved", .bool false),
        ("clue", .string "Where we met"), ("key", .string "love"),
        ("answer", .string "Bristol")])).insert (clueKey "Clue10")
      (Fields.ofList [("Locked", .bool true)])).insert lastPathKey
      (Fields.ofList [("last-path", .string "Clue2"), ("note", .string "x")])

/-- The first clue is found and answered, with a relaunch in between. -/
def answerClue1 : List AppEvent :=
  [ .scan "Clue1", .launch
  , .openClue (some "Clue1"), .deliver 0 (some 2)
  , .edit 0 "Bristol", .checkAnswer 0 ]

theorem progress_exact_answerClue1 :
    ProgressExact huntStore
      (appAfter sampleBundle emptyStyle huntStore answerClue1).server.current
      [.scanned "Clue1", .checked "Clue1" true] :=
  (progress_exact sampleBundle emptyStyle huntStore answerClue1 (by decide)).1

theorem scan_erases_other_field :
    ¬∀ (bundle : InstalledBundle) (base : BaseStyle) (store0 : Store)
      (es : List AppEvent), (∀ e ∈ es, ExistingClue store0 e) →
      ∀ key name, ¬(key = lastPathKey ∧ name = "last-path") →
        (∀ clue, key = clueKey clue → name ≠ "Locked" ∧ name ≠ "solved") →
        field (appAfter bundle base store0 es).server.current key name =
          field store0 key name := by
  intro hclaim
  have hnote := hclaim sampleBundle emptyStyle huntStore answerClue1 (by decide)
    lastPathKey "note" (by decide) (fun _ _ => ⟨by decide, by decide⟩)
  have hnow : field (appAfter sampleBundle emptyStyle huntStore
      answerClue1).server.current lastPathKey "note" = none := rfl
  have hthen : field huntStore lastPathKey "note" = some (.string "x") := rfl
  rw [hnow, hthen] at hnote
  cases hnote

end ValentinesDay.Ports.PlayerProgress
