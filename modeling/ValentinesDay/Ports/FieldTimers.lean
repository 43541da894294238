import ValentinesDay.Ports.PassPhrase

/-!
# What the timers leave in the pass-phrase field

An accepted phrase leaves dozens of timers, none of which is ever cancelled.
Each writes to the field whatever has happened to it since.

`Watched` carries, beside the page, what a reader of the field has to know: the
text the user left in it last and the phrase accepted last.  Nothing in the code
reads these.

## Main results

* `field_timers_iff` — the field shows the user's text or the growing message,
  and no timer disturbs later text, exactly when timers fire only on the text
  they were left for; waiting for them is enough.
-/

namespace ValentinesDay.Ports.FieldTimers

open ValentinesDay.Verified.Fallible
open ValentinesDay.Verified.Run
open ValentinesDay.Verified.Pending
open ValentinesDay.Ports.Runtime
open ValentinesDay.Ports.Firestore
open ValentinesDay.Ports.PassPhrase

/-! ## The timers of one message -/

/-- The text a verdict has written letter by letter. -/
def titleText : Verdict → String
  | .password => "HARRY POTTER IS DEAD"
  | .secretPassword => "I miss you more baby"
  | .love => "I love you so so so so so so so much"
  | .wrong => ""

/-- What happens four seconds after a phrase was accepted. -/
def lastAction : Verdict → TimerAction
  | .password => .pushTreasurePage
  | _ => .clear

/-- One accepted phrase: the press, the verdict and the time. -/
structure Acceptance where
  owner : Nat
  verdict : Verdict
  time : Nat
  deriving DecidableEq, Repr

/-- The timers an acceptance leaves, in their order. -/
def Acceptance.schedule (a : Acceptance) : List Timer :=
  letterTimers (titleText a.verdict) a.time a.owner ++
    [{ due := a.time + 40, action := lastAction a.verdict, owner := a.owner }]

/-- The field after `fired` timers of the acceptance. -/
def Acceptance.shown (a : Acceptance) (fired : Nat) : String :=
  let letters := (titleText a.verdict).toList
  if fired ≤ letters.length then String.ofList (letters.take fired) else ""

/-- The timer's block empties the field. -/
def Clears (action : TimerAction) : Prop := ∀ letter, action ≠ .append letter

instance : DecidablePred Clears := fun action => by
  cases action with
  | append letter => exact .isFalse fun h => h letter rfl
  | pushTreasurePage => exact .isTrue fun _ => by simp
  | clear => exact .isTrue fun _ => by simp

theorem timers_conclude (p : PassKey) (owner : Nat) {verdict : Verdict}
    (h : verdict ≠ .wrong) :
    (p.conclude owner verdict).timers = p.timers ++
      Acceptance.schedule { owner := owner, verdict := verdict, time := p.now } := by
  unfold Acceptance.schedule
  cases verdict with
  | password => exact List.append_assoc _ _ _
  | secretPassword => exact List.append_assoc _ _ _
  | love => exact List.append_assoc _ _ _
  | wrong => exact absurd rfl h

theorem passKeyField_conclude (p : PassKey) (owner : Nat) (verdict : Verdict) :
    (p.conclude owner verdict).passKeyField =
      if verdict = .wrong then p.passKeyField else "" := by
  cases verdict <;> rfl

/-- A timer's block leaves the field alone only by emptying an empty field. -/
theorem passKeyField_fire_eq_iff (p : PassKey) (action : TimerAction) :
    (p.fire action).passKeyField = p.passKeyField ↔
      Clears action ∧ p.passKeyField = "" := by
  have hclear : Clears action → ((p.fire action).passKeyField = p.passKeyField ↔
      p.passKeyField = "") := by
    intro hclears
    have hempty : (p.fire action).passKeyField = "" := by
      cases action with
      | append letter => exact absurd rfl (hclears letter)
      | pushTreasurePage => rfl
      | clear => rfl
    rw [hempty]
    exact eq_comm
  by_cases hclears : Clears action
  · rw [hclear hclears]
    exact (and_iff_right hclears).symm
  · refine iff_of_false ?_ fun h => hclears h.1
    intro h
    cases action with
    | append letter =>
        have hlength := congrArg String.length h
        simp only [PassKey.fire, String.length_push] at hlength
        omega
    | pushTreasurePage => exact hclears fun _ => by simp
    | clear => exact hclears fun _ => by simp

theorem getElem?_letterTimers (title : String) (now owner k : Nat) :
    (letterTimers title now owner)[k]? = title.toList[k]?.map fun letter =>
      { due := now + k, action := .append letter, owner := owner } := by
  simp [letterTimers, List.getElem?_zipIdx, Function.comp_def]

theorem length_letterTimers (title : String) (now owner : Nat) :
    (letterTimers title now owner).length = title.toList.length := by
  simp [letterTimers]

/-- Every message is written within the four seconds. -/
theorem length_titleText_le (verdict : Verdict) :
    (titleText verdict).toList.length ≤ 40 := by
  cases verdict <;> decide

theorem owner_schedule {a : Acceptance} {t : Timer} (h : t ∈ a.schedule) :
    t.owner = a.owner := by
  unfold Acceptance.schedule letterTimers at h
  rcases List.mem_append.mp h with hletter | hlast
  · obtain ⟨⟨letter, charIndex⟩, -, rfl⟩ := List.mem_map.mp hletter
    rfl
  · rw [List.mem_singleton.mp hlast]

/-- The timers of one acceptance fall due one after the other. -/
theorem pairwise_schedule (a : Acceptance) :
    a.schedule.Pairwise fun t t' => t.due < t'.due := by
  have hle := length_titleText_le a.verdict
  unfold Acceptance.schedule
  rw [List.pairwise_append]
  refine ⟨?_, List.pairwise_singleton _ _, ?_⟩
  · rw [List.pairwise_iff_getElem]
    intro i j hi hj hij
    have hti := List.getElem?_eq_getElem hi
    have htj := List.getElem?_eq_getElem hj
    rw [getElem?_letterTimers, Option.map_eq_some_iff] at hti htj
    obtain ⟨letter, -, hti⟩ := hti
    obtain ⟨letter', -, htj⟩ := htj
    rw [← hti, ← htj]
    show a.time + i < a.time + j
    omega
  · intro t ht t' ht'
    obtain ⟨i, hi, rfl⟩ := List.getElem_of_mem ht
    have hti := List.getElem?_eq_getElem hi
    rw [getElem?_letterTimers, Option.map_eq_some_iff] at hti
    obtain ⟨letter, -, hti⟩ := hti
    rw [length_letterTimers] at hi
    rw [List.mem_singleton.mp ht', ← hti]
    show a.time + i < a.time + 40
    omega

theorem shown_zero (a : Acceptance) : a.shown 0 = "" := by
  simp [Acceptance.shown]

/-- What is shown is the message as far as it is written, or nothing again. -/
theorem shown_isPrefix (a : Acceptance) (fired : Nat) :
    (a.shown fired).toList <+: (titleText a.verdict).toList := by
  unfold Acceptance.shown
  simp only
  split
  · rw [String.toList_ofList]
    exact List.take_prefix _ _
  · exact List.nil_prefix

/-- The next timer of an acceptance writes the next letter, or clears the field
after the last one. -/
theorem passKeyField_fire_shown {a : Acceptance} {k : Nat} {t : Timer} {p : PassKey}
    (ht : a.schedule[k]? = some t) (hfield : p.passKeyField = a.shown k) :
    (p.fire t.action).passKeyField = a.shown (k + 1) := by
  have hletters := length_letterTimers (titleText a.verdict) a.time a.owner
  by_cases hk : k < (titleText a.verdict).toList.length
  · have hletter : (titleText a.verdict).toList[k]? =
        some (titleText a.verdict).toList[k] := List.getElem?_eq_getElem hk
    unfold Acceptance.schedule at ht
    rw [List.getElem?_append_left (by omega), getElem?_letterTimers, hletter] at ht
    cases ht
    have hnow : a.shown k =
        String.ofList ((titleText a.verdict).toList.take k) := if_pos (by omega)
    have hnext : a.shown (k + 1) =
        String.ofList ((titleText a.verdict).toList.take (k + 1)) := if_pos (by omega)
    show p.passKeyField.push _ = _
    rw [hfield, hnow, hnext, List.take_add_one, hletter]
    apply String.toList_injective
    simp
  · have hlast : (a.shown (k + 1)) = "" := if_neg (by omega)
    unfold Acceptance.schedule at ht
    rw [List.getElem?_append_right (by omega)] at ht
    have hmem := List.mem_singleton.mp (List.mem_of_getElem? ht)
    rw [hlast, hmem]
    cases a.verdict <;> rfl

/-! ## The page with a reader of the field -/

/-- The page and what was done to its field. -/
structure Watched where
  page : PassKey
  /-- History: the text of the user's last edit. -/
  typed : String
  /-- History: the phrase accepted last. -/
  accepted : Option Acceptance
  /-- History: the user has edited the field since. -/
  edited : Bool

/-- A page before the first keystroke. -/
def Watched.launched : Watched where
  page := PassKey.launched
  typed := ""
  accepted := none
  edited := false

/-- The phrase the event has accepted, if it is a response that does so. -/
def acceptance (p : PassKey) : PassKeyEvent → Option Acceptance
  | .respond request response =>
      match p.inFlight[request]?, castPhrases response with
      | some s, .ok phrases =>
          let verdict := phrases.judge p.passKeyField
          if verdict = .wrong then none
          else some { owner := s.id, verdict := verdict, time := p.now }
      | _, _ => none
  | _ => none

/-- The history after the event, beside the page after it. -/
def Watched.note (w : Watched) (e : PassKeyEvent) (page : PassKey) : Watched :=
  match e, acceptance w.page e with
  | .edit text, _ => { w with page := page, typed := text, edited := true }
  | _, some a => { w with page := page, accepted := some a, edited := false }
  | _, none => { w with page := page }

/-- A step of the page with its history. -/
def Watched.step (w : Watched) (e : PassKeyEvent) : Except Crash Watched := do
  let page ← w.page.step e
  return w.note e page

abbrev watch : Except Crash Watched → PassKeyEvent → Except Crash Watched :=
  halting Watched.step

/-- The press whose message is in the field; none before the first and once the
user has edited the field. -/
def Watched.current (w : Watched) : Option Nat :=
  if w.edited then none else w.accepted.map (·.owner)

/-- Forgetting the history gives the run of the page. -/
theorem page_watched (es : List PassKeyEvent) :
    (exec watch (.ok Watched.launched) es).map Watched.page = pageAfter es := by
  have hpage : ∀ (w : Watched) (e : PassKeyEvent) (page : PassKey),
      (w.note e page).page = page := by
    intro w e page
    unfold Watched.note
    split <;> rfl
  have hstep : ∀ (p : Except Crash Watched) (e : PassKeyEvent),
      (watch p e).map Watched.page = PassPhrase.step (p.map Watched.page) e := by
    intro p e
    cases p with
    | error c => rfl
    | ok w =>
        show (Watched.step w e).map Watched.page = w.page.step e
        unfold Watched.step
        cases w.page.step e with
        | error c => rfl
        | ok page => exact congrArg Except.ok (hpage w e page)
  exact exec_map (Except.map Watched.page) hstep (.ok Watched.launched) es

/-! ## The property and the conditions -/

/-- The field holds the user's last text or the beginning of the message
accepted last. -/
def Watched.FieldShows (w : Watched) : Prop :=
  w.page.passKeyField = w.typed ∨
    ∃ a ∈ w.accepted, w.page.passKeyField.toList <+: (titleText a.verdict).toList

/-- `FieldShows` of a page that lives. -/
def FieldOk : Except Crash Watched → Prop
  | .ok w => w.FieldShows
  | .error _ => True

/-- A timer that fires after an edit or another acceptance leaves the field as
it is. -/
def TimerHarmless : Except Crash Watched → PassKeyEvent → Prop
  | .ok w, .fire timer => ∀ t ∈ w.page.dueTimer timer, w.current ≠ some t.owner →
      (w.page.fire t.action).passKeyField = w.page.passKeyField
  | _, _ => True

/-- In a run of the page the timers never corrupt later text. -/
structure TimersHarmless (es : List PassKeyEvent) : Prop where
  field : Throughout watch FieldOk (.ok Watched.launched) es
  stale : Along watch TimerHarmless (.ok Watched.launched) es

/-- A timer fires only when no other timer is due before it. -/
def InDueOrder : Except Crash Watched → PassKeyEvent → Prop
  | .ok w, .fire timer =>
      ∀ t ∈ w.page.dueTimer timer, ∀ t' ∈ w.page.timers, t.due ≤ t'.due
  | _, _ => True

/-- A timer fires on the message it was left for, or only empties a field that
is empty. -/
def FiresOnItsOwn : Except Crash Watched → PassKeyEvent → Prop
  | .ok w, .fire timer => ∀ t ∈ w.page.dueTimer timer,
      w.current = some t.owner ∨ Clears t.action ∧ w.page.passKeyField = ""
  | _, _ => True

/-- An edit, or a response that accepts a phrase, comes with no timer left. -/
def WaitsForTimers : Except Crash Watched → PassKeyEvent → Prop
  | .ok w, .edit _ => w.page.timers = []
  | .ok w, .respond request response =>
      (acceptance w.page (.respond request response)).isSome → w.page.timers = []
  | _, _ => True

instance (w : Watched) : Decidable w.FieldShows := by
  unfold Watched.FieldShows
  infer_instance

instance (p : Except Crash Watched) : Decidable (FieldOk p) := by
  cases p with
  | error c => exact .isTrue trivial
  | ok w => exact inferInstanceAs (Decidable w.FieldShows)

instance : ∀ (p : Except Crash Watched) (e : PassKeyEvent), Decidable (InDueOrder p e)
  | .error _, .edit _ | .error _, .textFieldShouldReturn | .error _, .respond _ _
  | .error _, .fire _ | .error _, .tick => .isTrue trivial
  | .ok _, .edit _ | .ok _, .textFieldShouldReturn | .ok _, .respond _ _
  | .ok _, .tick => .isTrue trivial
  | .ok w, .fire timer => inferInstanceAs (Decidable
      (∀ t ∈ w.page.dueTimer timer, ∀ t' ∈ w.page.timers, t.due ≤ t'.due))

instance : ∀ (p : Except Crash Watched) (e : PassKeyEvent),
    Decidable (WaitsForTimers p e)
  | .error _, .edit _ | .error _, .textFieldShouldReturn | .error _, .respond _ _
  | .error _, .fire _ | .error _, .tick => .isTrue trivial
  | .ok _, .textFieldShouldReturn | .ok _, .fire _ | .ok _, .tick => .isTrue trivial
  | .ok w, .edit _ => inferInstanceAs (Decidable (w.page.timers = []))
  | .ok w, .respond request response => inferInstanceAs (Decidable
      ((acceptance w.page (.respond request response)).isSome → w.page.timers = []))

/-- Being harmless is a condition on the moment the timer fires. -/
theorem timerHarmless_iff (p : Except Crash Watched) (e : PassKeyEvent) :
    TimerHarmless p e ↔ FiresOnItsOwn p e := by
  cases p with
  | error c => cases e <;> exact Iff.rfl
  | ok w =>
      cases e with
      | fire timer =>
          unfold TimerHarmless FiresOnItsOwn
          refine forall_congr' fun t => forall_congr' fun _ => ?_
          rw [passKeyField_fire_eq_iff, or_iff_not_imp_left]
      | edit text => exact Iff.rfl
      | textFieldShouldReturn => exact Iff.rfl
      | respond request response => exact Iff.rfl
      | tick => exact Iff.rfl

/-! ## What an event does to the field and to its timers -/

/-- Everything an event that ends can do to the field and the timers. -/
inductive FieldStep (p : PassKey) : PassKeyEvent → PassKey → Prop
  | edited {text : String} {page : PassKey} (hfield : page.passKeyField = text)
      (htimers : page.timers = p.timers) : FieldStep p (.edit text) page
  | fired {timer : Nat} {t : Timer} {page : PassKey} (ht : p.dueTimer timer = some t)
      (hfield : page.passKeyField = (p.fire t.action).passKeyField)
      (htimers : page.timers = p.timers.eraseIdx timer) :
      FieldStep p (.fire timer) page
  | accepted {e : PassKeyEvent} {a : Acceptance} {page : PassKey}
      (ha : acceptance p e = some a) (hfield : page.passKeyField = "")
      (htimers : page.timers = p.timers ++ a.schedule) : FieldStep p e page
  | untouched {e : PassKeyEvent} {page : PassKey} (he : ∀ text, e ≠ .edit text)
      (ha : acceptance p e = none) (hfield : page.passKeyField = p.passKeyField)
      (htimers : page.timers = p.timers) : FieldStep p e page

theorem fieldStep_respond {p page : PassKey} {request : Nat}
    {response : DocumentResponse}
    (h : p.step (.respond request response) = .ok page) :
    FieldStep p (.respond request response) page := by
  have hnotEdit : ∀ text, PassKeyEvent.respond request response ≠ .edit text :=
    fun _ heq => by cases heq
  simp only [PassKey.step] at h
  cases hs : p.inFlight[request]? with
  | none =>
      rw [hs] at h
      cases h
      exact .untouched hnotEdit (by simp only [acceptance, hs]) rfl rfl
  | some s =>
      simp only [hs, checkKeyPhrase, bind_eq_ok_iff, pure_eq_ok, Except.ok.injEq] at h
      obtain ⟨phrases, hcast, rfl⟩ := h
      by_cases hwrong : phrases.judge p.passKeyField = .wrong
      · refine .untouched hnotEdit ?_ ?_ ?_
        · simp only [acceptance, hs, hcast, hwrong, if_true]
        · rw [passKeyField_conclude, if_pos hwrong]
        · rw [hwrong]
          rfl
      · refine .accepted ?_ ?_ (timers_conclude _ s.id hwrong)
        · simp only [acceptance, hs, hcast, if_neg hwrong]
        · rw [passKeyField_conclude, if_neg hwrong]

theorem fieldStep_of_step {p page : PassKey} {e : PassKeyEvent}
    (h : p.step e = .ok page) : FieldStep p e page := by
  cases e with
  | edit text =>
      cases h
      exact .edited rfl rfl
  | textFieldShouldReturn =>
      cases h
      exact .untouched (fun _ heq => by cases heq) rfl rfl rfl
  | respond request response => exact fieldStep_respond h
  | fire timer =>
      simp only [PassKey.step] at h
      cases ht : p.dueTimer timer with
      | none =>
          rw [ht] at h
          cases h
          exact .untouched (fun _ heq => by cases heq) rfl rfl rfl
      | some t =>
          rw [ht] at h
          cases h
          refine .fired ht ?_ (timers_fire _ _)
          cases t.action <;> rfl
  | tick =>
      cases h
      exact .untouched (fun _ heq => by cases heq) rfl rfl rfl

section Note

variable {w : Watched} {e : PassKeyEvent} {page : PassKey}

theorem note_of_none (he : ∀ text, e ≠ .edit text) (ha : acceptance w.page e = none) :
    w.note e page = { w with page := page } := by
  unfold Watched.note
  rw [ha]
  cases e with
  | edit text => exact absurd rfl (he text)
  | textFieldShouldReturn => rfl
  | respond request response => rfl
  | fire timer => rfl
  | tick => rfl

theorem note_of_some {a : Acceptance} (ha : acceptance w.page e = some a) :
    w.note e page = { w with page := page, accepted := some a, edited := false } := by
  unfold Watched.note
  rw [ha]
  cases e with
  | respond request response => rfl
  | edit text => cases ha
  | textFieldShouldReturn => cases ha
  | fire timer => cases ha
  | tick => cases ha

end Note

/-! ## The field under its own timers -/

/-- The field holds what the user typed, or as much of the message as its own
timers have written. -/
structure FieldInv (w : Watched) : Prop where
  typed : w.current = none → w.page.passKeyField = w.typed
  message : ∀ a, w.accepted = some a → w.edited = false → ∃ k,
    w.page.timers.filter (fun t => t.owner = a.owner) = a.schedule.drop k ∧
      w.page.passKeyField = a.shown k

/-- `FieldInv` of a page that is alive. -/
def LiveFieldInv : Except Crash Watched → Prop := Ends FieldInv (fun _ => True)

/-- No timer is pending that belongs to the press accepted now. -/
def OwnersFresh : Except Crash Watched → PassKeyEvent → Prop
  | .ok w, e => ∀ a, acceptance w.page e = some a → ∀ t ∈ w.page.timers,
      t.owner ≠ a.owner
  | .error _, _ => True

theorem fieldInv_launched : FieldInv Watched.launched where
  typed _ := rfl
  message a ha := by cases ha

section Step

variable {w : Watched} {page : PassKey}

theorem current_of_accepted {a : Acceptance} (ha : w.accepted = some a)
    (hedited : w.edited = false) : w.current = some a.owner := by
  simp [Watched.current, hedited, ha]

theorem FieldInv.untouched (h : FieldInv w)
    (hfield : page.passKeyField = w.page.passKeyField)
    (htimers : page.timers = w.page.timers) : FieldInv { w with page := page } where
  typed hnone := hfield.trans (h.typed hnone)
  message a ha hedited := by
    rw [hfield, htimers]
    exact h.message a ha hedited

theorem FieldInv.accepted {a : Acceptance}
    (hfresh : ∀ t ∈ w.page.timers, t.owner ≠ a.owner)
    (hfield : page.passKeyField = "")
    (htimers : page.timers = w.page.timers ++ a.schedule) :
    FieldInv { w with page := page, accepted := some a, edited := false } where
  typed hnone := by cases hnone
  message a' ha' _ := by
    cases ha'
    refine ⟨0, ?_, hfield.trans (shown_zero a).symm⟩
    have hothers : w.page.timers.filter (fun t => t.owner = a.owner) = [] := by
      rw [List.filter_eq_nil_iff]
      intro t ht
      simpa using hfresh t ht
    have hown : a.schedule.filter (fun t => t.owner = a.owner) = a.schedule := by
      rw [List.filter_eq_self]
      intro t ht
      simpa using owner_schedule ht
    rw [htimers, List.filter_append, hothers, hown, List.nil_append, List.drop_zero]

/-- The earliest timer is the next one of the message in the field, or it leaves
the field alone. -/
theorem FieldInv.fired (h : FieldInv w) {timer : Nat} {t : Timer}
    (ht : w.page.timers[timer]? = some t)
    (hfirst : ∀ t' ∈ w.page.timers, t.due ≤ t'.due)
    (hown : w.current = some t.owner ∨ Clears t.action ∧ w.page.passKeyField = "")
    (hfield : page.passKeyField = (w.page.fire t.action).passKeyField)
    (htimers : page.timers = w.page.timers.eraseIdx timer) :
    FieldInv { w with page := page } where
  typed hnone := by
    have hnone' : w.current = none := hnone
    have hempty := hown.resolve_left (by rw [hnone']; simp)
    exact (hfield.trans ((passKeyField_fire_eq_iff _ _).mpr hempty)).trans
      (h.typed hnone')
  message a ha hedited := by
    obtain ⟨k, htail, hshown⟩ := h.message a ha hedited
    by_cases howner : t.owner = a.owner
    · have hsorted : (w.page.timers.filter fun t => t.owner = a.owner).Pairwise
          fun t t' => t.due < t'.due := by
        rw [htail]
        exact (pairwise_schedule a).sublist (List.drop_sublist k _)
      have hcons := filter_eq_cons_of_earliest hsorted ht (by simpa using howner) hfirst
      rw [htail] at hcons
      refine ⟨k + 1, ?_, ?_⟩
      · rw [htimers, ← List.tail_drop, hcons, List.tail_cons]
      · have hnext : a.schedule[k]? = some t := by
          rw [← List.head?_drop, hcons, List.head?_cons]
        exact hfield.trans (passKeyField_fire_shown hnext hshown)
    · have hcurrent : w.current = some a.owner := current_of_accepted ha hedited
      rw [hcurrent, Option.some.injEq] at hown
      have hempty := hown.resolve_left (Ne.symm howner)
      refine ⟨k, ?_, ?_⟩
      · rw [htimers, filter_eraseIdx_of_neg ht (by simpa using howner)]
        exact htail
      · exact (hfield.trans ((passKeyField_fire_eq_iff _ _).mpr hempty)).trans hshown

end Step

/-- **Step lemma.**  Timers that fire in due order, each on its own message, keep
the field. -/
theorem fieldInv_step (p : Except Crash Watched) (e : PassKeyEvent)
    (h : LiveFieldInv p) (he : (InDueOrder p e ∧ FiresOnItsOwn p e) ∧ OwnersFresh p e) :
    LiveFieldInv (watch p e) := by
  obtain ⟨⟨hdue, hown⟩, hfresh⟩ := he
  refine ends_halting h ?_
  rintro w rfl hw
  rw [Watched.step]
  cases hstep : w.page.step e with
  | error c => trivial
  | ok page =>
      show FieldInv (w.note e page)
      cases fieldStep_of_step hstep with
      | edited hfield htimers =>
          exact { typed := fun _ => hfield, message := fun a _ hedited => by cases hedited }
      | fired ht hfield htimers =>
          rw [note_of_none (fun _ heq => by cases heq) rfl]
          exact hw.fired (getElem?_of_dueTimer ht) (hdue _ ht) (hown _ ht) hfield htimers
      | accepted ha hfield htimers =>
          rw [note_of_some ha]
          exact FieldInv.accepted (hfresh _ ha) hfield htimers
      | untouched hnotEdit ha hfield htimers =>
          rw [note_of_none hnotEdit ha]
          exact hw.untouched hfield htimers

theorem FieldInv.fieldShows {w : Watched} (h : FieldInv w) : w.FieldShows := by
  cases hcurrent : w.current with
  | none => exact .inl (h.typed hcurrent)
  | some owner =>
      right
      unfold Watched.current at hcurrent
      cases hedited : w.edited with
      | true => simp [hedited] at hcurrent
      | false =>
          simp only [hedited, Bool.false_eq_true, if_false,
            Option.map_eq_some_iff] at hcurrent
          obtain ⟨a, ha, -⟩ := hcurrent
          obtain ⟨k, -, hshown⟩ := h.message a ha hedited
          refine ⟨a, ha, ?_⟩
          rw [hshown]
          exact shown_isPrefix a k

/-! ## No two presses share their timers -/

theorem exists_inFlight_of_acceptance {p : PassKey} {e : PassKeyEvent}
    {a : Acceptance} (ha : acceptance p e = some a) :
    ∃ s ∈ p.inFlight, s.id = a.owner := by
  cases e with
  | respond request response =>
      unfold acceptance at ha
      cases hs : p.inFlight[request]? with
      | none => simp [hs] at ha
      | some s =>
          cases hcast : castPhrases response with
          | error c => simp [hs, hcast] at ha
          | ok phrases =>
              by_cases hwrong : phrases.judge p.passKeyField = .wrong
              · simp [hs, hcast, hwrong] at ha
              · simp only [hs, hcast, if_neg hwrong, Option.some.injEq] at ha
                exact ⟨s, List.mem_of_getElem? hs, by rw [← ha]⟩
  | edit text => cases ha
  | textFieldShouldReturn => cases ha
  | fire timer => cases ha
  | tick => cases ha

/-- The press accepted now has left no timer before: it was not judged yet. -/
theorem ownersFresh_of_passKeyInv {p : PassKey} {os : List Outcome}
    (h : PassKeyInv p os) {e : PassKeyEvent} {a : Acceptance}
    (ha : acceptance p e = some a) : ∀ t ∈ p.timers, t.owner ≠ a.owner := by
  obtain ⟨s, hs, hid⟩ := exists_inFlight_of_acceptance ha
  intro t ht heq
  have hpending : (t.action, t.owner) ∈ fired os ++ pending p.timers :=
    List.mem_append_right _ (List.mem_map_of_mem ht)
  obtain ⟨j, hj, howner, -⟩ := mem_scheduled.mp (h.timers.subset hpending)
  have hjudged : a.owner ∈ judgedIds os := by
    rw [← heq, ← howner]
    exact List.mem_map_of_mem hj
  have hinFlight : a.owner ∈ p.inFlight.map Submission.id :=
    hid ▸ List.mem_map_of_mem hs
  exact (List.nodup_append.mp h.ids).2.2 _ hinFlight _ hjudged rfl

theorem along_ownersFresh (es : List PassKeyEvent) :
    Along watch OwnersFresh (.ok Watched.launched) es := by
  refine along_iff_prefixes.mpr ?_
  intro pre e _
  have hpage := page_watched pre
  have hinv : LivePassKeyInv (pageAfter pre) (outcomesOf pre) := passKeyInv_run pre
  rw [← hpage] at hinv
  cases hwatched : exec watch (.ok Watched.launched) pre with
  | error c => trivial
  | ok w =>
      rw [hwatched] at hinv
      intro a ha
      exact ownersFresh_of_passKeyInv hinv ha

/-! ## Waiting for the timers -/

/-- All timers left belong to the message in the field. -/
def TimersCurrent : Except Crash Watched → Prop :=
  Ends (fun w => ∀ t ∈ w.page.timers, w.current = some t.owner) (fun _ => True)

theorem timersCurrent_step (p : Except Crash Watched) (e : PassKeyEvent)
    (h : TimersCurrent p) (he : WaitsForTimers p e) : TimersCurrent (watch p e) := by
  refine ends_halting h ?_
  rintro w rfl hw
  rw [Watched.step]
  cases hstep : w.page.step e with
  | error c => trivial
  | ok page =>
      show ∀ t ∈ (w.note e page).page.timers, (w.note e page).current = some t.owner
      cases fieldStep_of_step hstep with
      | edited hfield htimers =>
          intro t ht
          have hnone : w.page.timers = [] := he
          have hmem : t ∈ page.timers := ht
          rw [htimers, hnone] at hmem
          cases hmem
      | fired htimer hfield htimers =>
          rw [note_of_none (fun _ heq => by cases heq) rfl]
          intro t ht
          have hmem : t ∈ page.timers := ht
          rw [htimers] at hmem
          exact hw t (List.mem_of_mem_eraseIdx hmem)
      | accepted ha hfield htimers =>
          rw [note_of_some ha]
          intro t ht
          have hnone : w.page.timers = [] := by
            cases e with
            | respond request response => exact he (Option.isSome_iff_exists.mpr ⟨_, ha⟩)
            | edit text => cases ha
            | textFieldShouldReturn => cases ha
            | fire timer => cases ha
            | tick => cases ha
          have hmem : t ∈ page.timers := ht
          rw [htimers, hnone, List.nil_append] at hmem
          rw [owner_schedule hmem]
          rfl
      | untouched hnotEdit ha hfield htimers =>
          rw [note_of_none hnotEdit ha]
          intro t ht
          have hmem : t ∈ page.timers := ht
          rw [htimers] at hmem
          exact hw t hmem

theorem firesOnItsOwn_of_waits {es : List PassKeyEvent}
    (hwaits : Along watch WaitsForTimers (.ok Watched.launched) es) :
    Along watch FiresOnItsOwn (.ok Watched.launched) es := by
  have h0 : TimersCurrent (.ok Watched.launched) := by
    intro t ht
    cases ht
  refine along_of_guard timersCurrent_step ?_ h0 hwaits
  intro p e h _
  cases p with
  | error c => cases e <;> trivial
  | ok w =>
      have hw : ∀ t ∈ w.page.timers, w.current = some t.owner := h
      cases e with
      | fire timer =>
          intro t ht
          exact .inl (hw t (List.mem_of_getElem? (getElem?_of_dueTimer ht)))
      | edit text => trivial
      | textFieldShouldReturn => trivial
      | respond request response => trivial
      | tick => trivial

/-- **The timers and the field.**  In a run whose timers fire in due order, it is
enough that edits and acceptances come when no timer is left: the field then
always holds the user's last text or the beginning of the message accepted last,
and no timer changes it after an edit or another acceptance.  This holds exactly
when each timer fires on its own message or only empties an empty field. -/
theorem field_timers_iff (es : List PassKeyEvent)
    (hdue : Along watch InDueOrder (.ok Watched.launched) es) :
    (Along watch WaitsForTimers (.ok Watched.launched) es → TimersHarmless es) ∧
      (TimersHarmless es ↔ Along watch FiresOnItsOwn (.ok Watched.launched) es) := by
  have hsound : Along watch FiresOnItsOwn (.ok Watched.launched) es →
      TimersHarmless es := by
    intro hown
    have h0 : LiveFieldInv (.ok Watched.launched) := fieldInv_launched
    have hC := along_and.mpr ⟨along_and.mpr ⟨hdue, hown⟩, along_ownersFresh es⟩
    have hfield : ∀ p, LiveFieldInv p → FieldOk p := by
      intro p h
      cases p with
      | error c => trivial
      | ok w => exact FieldInv.fieldShows h
    exact
      { field := (throughout_of_guard fieldInv_step h0 hC).mono hfield
        stale := hown.mono fun p e h => (timerHarmless_iff p e).mpr h }
  refine ⟨?_, ?_, hsound⟩
  · intro hwaits
    exact hsound (firesOnItsOwn_of_waits hwaits)
  · intro hharmless
    exact hharmless.stale.mono fun p e h => (timerHarmless_iff p e).mp h

/-- The password, and the first two letters of its message. -/
def twoLetters : List PassKeyEvent :=
  [ .edit "accio", .textFieldShouldReturn, .respond 0 sampleResponse, .fire 0
  , .tick, .fire 0 ]

theorem field_timers_twoLetters : TimersHarmless twoLetters :=
  (field_timers_iff twoLetters (by decide)).1 (by decide)

/-- The user types again before the first letter appears. -/
def typeOver : List PassKeyEvent :=
  [ .edit "accio", .textFieldShouldReturn, .respond 0 sampleResponse, .edit "hi"
  , .fire 0 ]

theorem typeOver_corrupted :
    ¬∀ es : List PassKeyEvent, Along watch InDueOrder (.ok Watched.launched) es →
      TimersHarmless es := by
  intro hclaim
  have hfield := (hclaim typeOver (by decide)).field
  exact absurd hfield (by decide)

end ValentinesDay.Ports.FieldTimers
