import Mathlib.Data.List.Count
import ValentinesDay.Ports.Firestore
import ValentinesDay.Verified.Fallible
import ValentinesDay.Verified.Pending
import ValentinesDay.Verified.Run

/-!
# The pass-phrase field

Return starts a read of the three phrases; the comparison happens in the
response, on whatever `PassKeyField` holds by then.  An accepted phrase empties
the field and leaves one timer for each letter of its message and one, after
four seconds, that empties the field again.

A `Submission` is the history of one press: nothing in the code remembers it.

## Main results

* `judged_as_submitted_iff` — each press is judged on the text it submitted
  exactly when no response finds another text that matters in the field.
-/

namespace ValentinesDay.Ports.PassPhrase

open ValentinesDay.Verified.Fallible
open ValentinesDay.Verified.Run
open ValentinesDay.Verified.Pending
open ValentinesDay.Ports.Runtime
open ValentinesDay.Ports.Firestore

/-! ## The phrases -/

/-- The strings of `password/password`. -/
structure Phrases where
  password : String
  secretPassword : String
  loveu : String
  deriving DecidableEq, Repr

/-- Which phrase the field holds. -/
inductive Verdict where
  | password
  | secretPassword
  | love
  | wrong
  deriving DecidableEq, Repr

/-- The comparisons of `CheckKeyPhrase`, in its order. -/
def Phrases.judge (phrases : Phrases) (text : String) : Verdict :=
  if text = phrases.password then .password
  else if text = phrases.secretPassword then .secretPassword
  else if text = phrases.loveu then .love
  else .wrong

def Phrases.Mem (phrases : Phrases) (text : String) : Prop :=
  text = phrases.password ∨ text = phrases.secretPassword ∨ text = phrases.loveu

instance (phrases : Phrases) (text : String) : Decidable (phrases.Mem text) := by
  unfold Phrases.Mem
  infer_instance

theorem Phrases.judge_eq_wrong_iff (phrases : Phrases) (text : String) :
    phrases.judge text = .wrong ↔ ¬phrases.Mem text := by
  unfold Phrases.judge Phrases.Mem
  split
  · simp_all
  · split
    · simp_all
    · split <;> simp_all

/-- The phrase a verdict stands for. -/
def Phrases.phrase (phrases : Phrases) : Verdict → Option String
  | .password => some phrases.password
  | .secretPassword => some phrases.secretPassword
  | .love => some phrases.loveu
  | .wrong => none

theorem Phrases.phrase_judge {phrases : Phrases} {text : String}
    (h : phrases.Mem text) : phrases.phrase (phrases.judge text) = some text := by
  unfold Phrases.judge
  split
  · next hpassword => rw [hpassword]; rfl
  · next hpassword =>
      split
      · next hsecret => rw [hsecret]; rfl
      · next hsecret =>
          have hlove : text = phrases.loveu :=
            (h.resolve_left hpassword).resolve_left hsecret
          rw [if_pos hlove, hlove]
          rfl

/-- Two texts are judged alike exactly when they are equal or both wrong. -/
theorem Phrases.judge_eq_judge_iff (phrases : Phrases) (text text' : String) :
    phrases.judge text = phrases.judge text' ↔
      text = text' ∨ ¬phrases.Mem text ∧ ¬phrases.Mem text' := by
  constructor
  · intro h
    by_cases hmem : phrases.Mem text
    · left
      have hmem' : phrases.Mem text' := by
        by_contra hnot
        rw [(phrases.judge_eq_wrong_iff text').mpr hnot,
          phrases.judge_eq_wrong_iff] at h
        exact h hmem
      have hphrase := phrase_judge hmem
      rw [h, phrase_judge hmem'] at hphrase
      exact (Option.some.inj hphrase).symm
    · right
      refine ⟨hmem, ?_⟩
      rw [← phrases.judge_eq_wrong_iff, ← h]
      exact (phrases.judge_eq_wrong_iff text).mpr hmem
  · rintro (heq | ⟨hmem, hmem'⟩)
    · rw [heq]
    · rw [(phrases.judge_eq_wrong_iff text).mpr hmem,
        (phrases.judge_eq_wrong_iff text').mpr hmem']

/-! ## The field and its timers -/

/-- History of one press: its number and the text of the field then. -/
structure Submission where
  id : Nat
  text : String
  deriving DecidableEq, Repr

/-- The block of a scheduled `Timer`. -/
inductive TimerAction where
  | append (letter : Char)
  | pushTreasurePage
  | clear
  deriving DecidableEq, Repr

/-- A scheduled `Timer`.  `owner` is history: the press whose phrase was
accepted. -/
structure Timer where
  due : Nat
  action : TimerAction
  owner : Nat
  deriving DecidableEq, Repr

/-- The part of the page around `PassKeyField`.  Time is counted in tenths of
a second. -/
structure PassKey where
  passKeyField : String
  /-- Reads of the phrases that have not been answered. -/
  inFlight : List Submission
  timers : List Timer
  now : Nat
  /-- `TreasurePage`s pushed so far. -/
  treasurePages : Nat
  messages : List MessageContent
  /-- History: presses so far. -/
  presses : Nat
  deriving DecidableEq, Repr

/-- The page before the first press. -/
def PassKey.launched : PassKey where
  passKeyField := ""
  inFlight := []
  timers := []
  now := 0
  treasurePages := 0
  messages := []
  presses := 0

/-- One timer for each letter, a tenth of a second apart. -/
def letterTimers (titleText : String) (now owner : Nat) : List Timer :=
  titleText.toList.zipIdx.map fun (letter, charIndex) =>
    { due := now + charIndex, action := .append letter, owner := owner }

/-- The letters of `HomePage.rearrangeLetters`. -/
def rearrangeLetters : Nat → Nat → List Timer := letterTimers "HARRY POTTER IS DEAD"

/-- `HomePage.rearrangeLetters2`. -/
def rearrangeLetters2 : Nat → Nat → List Timer := letterTimers "I miss you more baby"

/-- `HomePage.rearrangeLetters3`. -/
def rearrangeLetters3 : Nat → Nat → List Timer :=
  letterTimers "I love you so so so so so so so much"

/-- `HomePage.Message`. -/
def message (clue : String) : MessageContent where
  title := "Whoops"
  body := clue
  iconText := some "🥶"
  buttonTitle := some "Ok"

/-- The message of the last `else` of `CheckKeyPhrase`. -/
def wrongMessage : MessageContent := message "I think you typed it wrong."

/-- An accepted phrase: the field is emptied, the letters are scheduled and,
after four seconds, the last step. -/
def PassKey.accept (p : PassKey) (letters : Nat → Nat → List Timer)
    (last : TimerAction) (owner : Nat) : PassKey :=
  { p with
    passKeyField := ""
    timers := p.timers ++ letters p.now owner ++
      [{ due := p.now + 40, action := last, owner := owner }] }

/-- The branch of `CheckKeyPhrase` that a verdict selects. -/
def PassKey.conclude (p : PassKey) (owner : Nat) : Verdict → PassKey
  | .password => p.accept rearrangeLetters .pushTreasurePage owner
  | .secretPassword => p.accept rearrangeLetters2 .clear owner
  | .love => p.accept rearrangeLetters3 .clear owner
  | .wrong => { p with messages := p.messages ++ [wrongMessage] }

/-- The three casts of `CheckKeyPhrase`. -/
def castPhrases (response : DocumentResponse) : Except Crash Phrases := do
  let data := response.data
  let password ← castString data "password"
  let secretPassword ← castString data "secretpassword"
  let loveu ← castString data "love"
  return { password := password, secretPassword := secretPassword, loveu := loveu }

/-- The callback of `HomePage.CheckKeyPhrase`: the live field is judged. -/
def checkKeyPhrase (p : PassKey) (owner : Nat) (response : DocumentResponse) :
    Except Crash PassKey := do
  let phrases ← castPhrases response
  return p.conclude owner (phrases.judge p.passKeyField)

/-- Edits, presses of Return, answers to reads, timers and time. -/
inductive PassKeyEvent where
  | edit (text : String)
  | textFieldShouldReturn
  | respond (request : Nat) (response : DocumentResponse)
  | fire (timer : Nat)
  | tick

/-- The timer's block, with the timer gone. -/
def PassKey.fire (p : PassKey) : TimerAction → PassKey
  | .append letter => { p with passKeyField := p.passKeyField.push letter }
  | .pushTreasurePage =>
      { p with treasurePages := p.treasurePages + 1, passKeyField := "" }
  | .clear => { p with passKeyField := "" }

/-- The timer at this place, if its time has come. -/
def PassKey.dueTimer (p : PassKey) (timer : Nat) : Option Timer :=
  p.timers[timer]?.filter fun t => t.due ≤ p.now

/-- One event of the field. -/
def PassKey.step (p : PassKey) : PassKeyEvent → Except Crash PassKey
  | .edit text => .ok { p with passKeyField := text }
  | .textFieldShouldReturn =>
      .ok { p with
        inFlight := p.inFlight ++ [{ id := p.presses, text := p.passKeyField }]
        presses := p.presses + 1 }
  | .respond request response =>
      match p.inFlight[request]? with
      | none => .ok p
      | some s =>
          checkKeyPhrase { p with inFlight := p.inFlight.eraseIdx request } s.id response
  | .fire timer =>
      match p.dueTimer timer with
      | none => .ok p
      | some t => .ok ({ p with timers := p.timers.eraseIdx timer }.fire t.action)
  | .tick => .ok { p with now := p.now + 1 }

abbrev step : Except Crash PassKey → PassKeyEvent → Except Crash PassKey :=
  halting PassKey.step

/-! ## What a run shows -/

/-- One comparison: the press it is for, the phrases and what came out. -/
structure Judgment where
  submission : Submission
  phrases : Phrases
  verdict : Verdict
  deriving DecidableEq, Repr

/-- What an observer of the field can count. -/
inductive Outcome where
  | submitted (s : Submission)
  | judged (j : Judgment)
  /-- A timer that this press left has fired. -/
  | fired (action : TimerAction) (owner : Nat)
  deriving DecidableEq, Repr

/-- What an event shows. -/
def outcomes : Except Crash PassKey → PassKeyEvent → List Outcome
  | .ok p, .textFieldShouldReturn =>
      [.submitted { id := p.presses, text := p.passKeyField }]
  | .ok p, .respond request response =>
      match p.inFlight[request]?, castPhrases response with
      | some s, .ok phrases =>
          [.judged
            { submission := s, phrases := phrases
              verdict := phrases.judge p.passKeyField }]
      | _, _ => []
  | .ok p, .fire timer =>
      match p.dueTimer timer with
      | some t => [.fired t.action t.owner]
      | none => []
  | _, _ => []

/-- The comparisons among the outcomes. -/
def judgments (os : List Outcome) : List Judgment :=
  os.filterMap fun o =>
    match o with
    | .judged j => some j
    | _ => none

/-- Presses that have been judged. -/
def judgedIds (os : List Outcome) : List Nat :=
  (judgments os).map (·.submission.id)

/-- Timers that have fired, with the press that left them. -/
def fired (os : List Outcome) : List (TimerAction × Nat) :=
  os.filterMap fun o =>
    match o with
    | .fired action owner => some (action, owner)
    | _ => none

/-- Timers still to fire. -/
def pending (timers : List Timer) : List (TimerAction × Nat) :=
  timers.map fun t => (t.action, t.owner)

/-- What a verdict brings about: its message letter by letter, then its end. -/
def Verdict.leaves : Verdict → List TimerAction
  | .password => "HARRY POTTER IS DEAD".toList.map .append ++ [.pushTreasurePage]
  | .secretPassword => "I miss you more baby".toList.map .append ++ [.clear]
  | .love => "I love you so so so so so so so much".toList.map .append ++ [.clear]
  | .wrong => []

/-- The timers these judgments leave. -/
def scheduled (js : List Judgment) : List (TimerAction × Nat) :=
  js.flatMap fun j => j.verdict.leaves.map (·, j.submission.id)

@[simp] theorem judgments_append (os os' : List Outcome) :
    judgments (os ++ os') = judgments os ++ judgments os' :=
  List.filterMap_append

@[simp] theorem fired_append (os os' : List Outcome) :
    fired (os ++ os') = fired os ++ fired os' :=
  List.filterMap_append

@[simp] theorem scheduled_append (js js' : List Judgment) :
    scheduled (js ++ js') = scheduled js ++ scheduled js' :=
  List.flatMap_append

@[simp] theorem judgments_submitted (s : Submission) :
    judgments [.submitted s] = [] := rfl

@[simp] theorem judgments_judged (j : Judgment) : judgments [.judged j] = [j] := rfl

@[simp] theorem judgments_fired (action : TimerAction) (owner : Nat) :
    judgments [.fired action owner] = [] := rfl

@[simp] theorem fired_submitted (s : Submission) : fired [.submitted s] = [] := rfl

@[simp] theorem fired_judged (j : Judgment) : fired [.judged j] = [] := rfl

@[simp] theorem fired_fired (action : TimerAction) (owner : Nat) :
    fired [.fired action owner] = [(action, owner)] := rfl

theorem mem_judgments {os : List Outcome} {j : Judgment} :
    j ∈ judgments os ↔ .judged j ∈ os := by
  unfold judgments
  rw [List.mem_filterMap]
  constructor
  · rintro ⟨o, ho, hj⟩
    cases o with
    | judged j' =>
        cases hj
        exact ho
    | submitted s => cases hj
    | fired action owner => cases hj
  · intro hj
    exact ⟨_, hj, rfl⟩

theorem mem_scheduled {js : List Judgment} {action : TimerAction} {owner : Nat} :
    (action, owner) ∈ scheduled js ↔
      ∃ j ∈ js, j.submission.id = owner ∧ action ∈ j.verdict.leaves := by
  unfold scheduled
  rw [List.mem_flatMap]
  constructor
  · rintro ⟨j, hj, hmem⟩
    obtain ⟨action', haction, heq⟩ := List.mem_map.mp hmem
    cases heq
    exact ⟨j, hj, rfl, haction⟩
  · rintro ⟨j, hj, rfl, haction⟩
    exact ⟨j, hj, List.mem_map_of_mem haction⟩

/-- Among judgments of different presses, each accounts for its own timers. -/
theorem count_scheduled {js : List Judgment}
    (hnodup : (js.map (·.submission.id)).Nodup) {j : Judgment} (hj : j ∈ js)
    (action : TimerAction) :
    (scheduled js).count (action, j.submission.id) = j.verdict.leaves.count action := by
  induction js with
  | nil => cases hj
  | cons j' js ih =>
      rw [List.map_cons, List.nodup_cons] at hnodup
      obtain ⟨hfresh, hrest⟩ := hnodup
      have hcons : scheduled (j' :: js) =
          j'.verdict.leaves.map (·, j'.submission.id) ++ scheduled js := rfl
      rw [hcons, List.count_append]
      rcases List.mem_cons.mp hj with rfl | hmem
      · have hnone : (action, j.submission.id) ∉ scheduled js := by
          intro hmem
          obtain ⟨j', hj', hid, -⟩ := mem_scheduled.mp hmem
          exact hfresh (hid ▸ List.mem_map_of_mem hj')
        rw [List.count_eq_zero_of_not_mem hnone, Nat.add_zero]
        have hinj : Function.Injective fun action : TimerAction =>
            (action, j.submission.id) := fun _ _ heq => (Prod.mk.inj heq).1
        exact List.count_map_of_injective _ _ hinj action
      · have hne : j'.submission.id ≠ j.submission.id := by
          intro heq
          exact hfresh (heq ▸ List.mem_map_of_mem hmem)
        have hnone : (action, j.submission.id) ∉
            j'.verdict.leaves.map (·, j'.submission.id) := by
          intro hmem
          obtain ⟨action', -, heq⟩ := List.mem_map.mp hmem
          exact hne (Prod.mk.inj heq).2
        rw [List.count_eq_zero_of_not_mem hnone, Nat.zero_add]
        exact ih hrest hmem

theorem count_pushTreasurePage_leaves (verdict : Verdict) :
    verdict.leaves.count .pushTreasurePage = if verdict = .password then 1 else 0 := by
  cases verdict <;> decide

theorem pending_letterTimers (titleText : String) (now owner : Nat) :
    pending (letterTimers titleText now owner) =
      (titleText.toList.map .append).map (·, owner) := by
  conv_rhs => rw [← List.zipIdx_map_fst 0 titleText.toList, List.map_map, List.map_map]
  unfold pending letterTimers
  rw [List.map_map]
  rfl

/-- A verdict schedules what it leaves. -/
theorem pending_conclude (p : PassKey) (owner : Nat) (verdict : Verdict) :
    pending (p.conclude owner verdict).timers =
      pending p.timers ++ verdict.leaves.map (·, owner) := by
  have haccept : ∀ (titleText : String) (last : TimerAction),
      pending (p.accept (letterTimers titleText) last owner).timers =
        pending p.timers ++
          (titleText.toList.map TimerAction.append ++ [last]).map (·, owner) := by
    intro titleText last
    have hletters := pending_letterTimers titleText p.now owner
    unfold pending at hletters ⊢
    simp only [PassKey.accept, List.map_append, hletters, List.append_assoc]
    rfl
  cases verdict with
  | password => exact haccept _ _
  | secretPassword => exact haccept _ _
  | love => exact haccept _ _
  | wrong => exact (List.append_nil _).symm

theorem getElem?_of_dueTimer {p : PassKey} {timer : Nat} {t : Timer}
    (h : p.dueTimer timer = some t) : p.timers[timer]? = some t := by
  unfold PassKey.dueTimer at h
  exact (Option.filter_eq_some_iff.mp h).1

@[simp] theorem inFlight_conclude (p : PassKey) (owner : Nat) (verdict : Verdict) :
    (p.conclude owner verdict).inFlight = p.inFlight := by
  cases verdict <;> rfl

@[simp] theorem presses_conclude (p : PassKey) (owner : Nat) (verdict : Verdict) :
    (p.conclude owner verdict).presses = p.presses := by
  cases verdict <;> rfl

/-- The verdict shows a message if it is wrong, and none otherwise. -/
theorem messages_conclude (p : PassKey) (owner : Nat) (verdict : Verdict) :
    (p.conclude owner verdict).messages =
      p.messages ++ List.replicate (if verdict = .wrong then 1 else 0) wrongMessage := by
  cases verdict <;> simp [PassKey.conclude, PassKey.accept]

@[simp] theorem treasurePages_conclude (p : PassKey) (owner : Nat)
    (verdict : Verdict) : (p.conclude owner verdict).treasurePages = p.treasurePages := by
  cases verdict <;> rfl

/-- The timer pushes one `TreasurePage` if that is its action. -/
theorem treasurePages_fire (p : PassKey) (action : TimerAction) :
    (p.fire action).treasurePages =
      p.treasurePages + if action = .pushTreasurePage then 1 else 0 := by
  cases action <;> rfl

@[simp] theorem messages_fire (p : PassKey) (action : TimerAction) :
    (p.fire action).messages = p.messages := by
  cases action <;> rfl

@[simp] theorem timers_fire (p : PassKey) (action : TimerAction) :
    (p.fire action).timers = p.timers := by
  cases action <;> rfl

@[simp] theorem inFlight_fire (p : PassKey) (action : TimerAction) :
    (p.fire action).inFlight = p.inFlight := by
  cases action <;> rfl

@[simp] theorem presses_fire (p : PassKey) (action : TimerAction) :
    (p.fire action).presses = p.presses := by
  cases action <;> rfl

/-! ## Each press is judged at most once and leaves what its verdict calls for -/

/-- `os` is what the run that led to `p` has shown. -/
structure PassKeyInv (p : PassKey) (os : List Outcome) : Prop where
  ids : (p.inFlight.map Submission.id ++ judgedIds os).Nodup
  below : ∀ id ∈ p.inFlight.map Submission.id ++ judgedIds os, id < p.presses
  asked : ∀ s ∈ p.inFlight, .submitted s ∈ os
  judged : ∀ j, .judged j ∈ os → .submitted j.submission ∈ os
  timers : (fired os ++ pending p.timers).Perm (scheduled (judgments os))
  treasurePages : p.treasurePages = (fired os).countP (·.1 = .pushTreasurePage)
  messages : p.messages =
    List.replicate ((judgments os).countP (·.verdict = .wrong)) wrongMessage

/-- `PassKeyInv` of a page that is alive. -/
def LivePassKeyInv (p : Except Crash PassKey) (os : List Outcome) : Prop :=
  Ends (PassKeyInv · os) (fun _ => True) p

theorem passKeyInv_launched : PassKeyInv PassKey.launched [] where
  ids := List.nodup_nil
  below id h := by simp [PassKey.launched, judgedIds, judgments] at h
  asked s h := by simp [PassKey.launched] at h
  judged j h := by simp at h
  timers := List.Perm.refl []
  treasurePages := rfl
  messages := rfl

section Step

variable {p : PassKey} {os : List Outcome}

/-- Events that touch nothing but the field and the clock. -/
theorem PassKeyInv.frame (h : PassKeyInv p os) {p' : PassKey}
    (hinFlight : p'.inFlight = p.inFlight) (hpresses : p'.presses = p.presses)
    (htimers : p'.timers = p.timers) (hmessages : p'.messages = p.messages)
    (htreasure : p'.treasurePages = p.treasurePages) : PassKeyInv p' os where
  ids := by rw [hinFlight]; exact h.ids
  below := by rw [hinFlight, hpresses]; exact h.below
  asked := by rw [hinFlight]; exact h.asked
  judged := h.judged
  timers := by rw [htimers]; exact h.timers
  treasurePages := htreasure.trans h.treasurePages
  messages := hmessages.trans h.messages

theorem PassKeyInv.press (h : PassKeyInv p os) :
    PassKeyInv
      { p with
        inFlight := p.inFlight ++ [{ id := p.presses, text := p.passKeyField }]
        presses := p.presses + 1 }
      (os ++ [.submitted { id := p.presses, text := p.passKeyField }]) where
  ids := by
    have hfresh : p.presses ∉ p.inFlight.map Submission.id ++ judgedIds os := by
      intro hmem
      have hlt := h.below p.presses hmem
      omega
    have hperm : (p.inFlight.map Submission.id ++ judgedIds os ++ [p.presses]).Perm
        (p.inFlight.map Submission.id ++ [p.presses] ++ judgedIds os) := by
      rw [List.append_assoc, List.append_assoc]
      exact List.Perm.append_left _ List.perm_append_comm
    have hnodup : (p.inFlight.map Submission.id ++ judgedIds os ++
        [p.presses]).Nodup := by
      rw [List.nodup_append]
      refine ⟨h.ids, List.nodup_singleton _, ?_⟩
      intro a ha b hb
      rw [List.mem_singleton.mp hb]
      rintro rfl
      exact hfresh ha
    simpa [judgedIds] using hperm.nodup hnodup
  below id hid := by
    simp only [judgedIds, judgments_append, judgments_submitted, List.append_nil,
      List.map_append, List.map_cons, List.map_nil, List.mem_append,
      List.mem_singleton] at hid
    simp only
    rcases hid with (hid | hid) | hid
    · have hlt := h.below id (List.mem_append_left _ hid)
      omega
    · omega
    · have hlt := h.below id (List.mem_append_right _ hid)
      omega
  asked s hs := by
    rcases List.mem_append.mp hs with hs | hs
    · exact List.mem_append_left _ (h.asked s hs)
    · rw [List.mem_singleton.mp hs]
      exact List.mem_append_right _ (List.mem_singleton_self _)
  judged j hj := by
    rcases List.mem_append.mp hj with hj | hj
    · exact List.mem_append_left _ (h.judged j hj)
    · cases List.mem_singleton.mp hj
  timers := by simpa using h.timers
  treasurePages := by simpa using h.treasurePages
  messages := by simpa using h.messages

/-- A response takes its request out, judges it, and schedules the push of an
accepted password. -/
theorem PassKeyInv.respond (h : PassKeyInv p os) {request : Nat} {s : Submission}
    (hs : p.inFlight[request]? = some s) (phrases : Phrases) (verdict : Verdict) :
    PassKeyInv
      ({ p with inFlight := p.inFlight.eraseIdx request }.conclude s.id verdict)
      (os ++ [.judged
        { submission := s, phrases := phrases, verdict := verdict }]) where
  ids := by
    have hperm : (p.inFlight.map Submission.id ++ judgedIds os).Perm
        ((p.inFlight.eraseIdx request).map Submission.id ++
          (judgedIds os ++ [s.id])) := by
      have hids := (perm_cons_eraseIdx hs).map Submission.id
      have hcons := hids.append_right (judgedIds os)
      refine hcons.trans ?_
      rw [List.map_cons, List.cons_append, ← List.append_assoc]
      exact (List.perm_append_singleton _ _).symm
    simpa [judgedIds] using hperm.nodup h.ids
  below id hid := by
    simp only [inFlight_conclude, judgedIds, judgments_append, judgments_judged,
      List.map_append, List.map_cons, List.map_nil, List.mem_append,
      List.mem_singleton] at hid
    rw [presses_conclude]
    rcases hid with hid | hid | hid
    · obtain ⟨s', hs', rfl⟩ := List.mem_map.mp hid
      exact h.below _ (List.mem_append_left _
        (List.mem_map_of_mem (List.mem_of_mem_eraseIdx hs')))
    · exact h.below id (List.mem_append_right _ hid)
    · rw [hid]
      exact h.below _ (List.mem_append_left _
        (List.mem_map_of_mem (List.mem_of_getElem? hs)))
  asked s' hs' := by
    rw [inFlight_conclude] at hs'
    exact List.mem_append_left _ (h.asked s' (List.mem_of_mem_eraseIdx hs'))
  judged j hj := by
    rcases List.mem_append.mp hj with hj | hj
    · exact List.mem_append_left _ (h.judged j hj)
    · cases List.mem_singleton.mp hj
      exact List.mem_append_left _ (h.asked s (List.mem_of_getElem? hs))
  timers := by
    rw [pending_conclude, fired_append, fired_judged, List.append_nil,
      judgments_append, judgments_judged, scheduled_append, ← List.append_assoc]
    refine h.timers.append ?_
    simp [scheduled]
  treasurePages := by
    rw [treasurePages_conclude, fired_append, fired_judged, List.append_nil]
    exact h.treasurePages
  messages := by
    rw [messages_conclude, judgments_append, judgments_judged, List.countP_append,
      List.countP_singleton, List.replicate_add]
    show p.messages ++ _ = _
    rw [h.messages]
    simp only [decide_eq_true_eq]

/-- A timer that fires moves from the pending ones to those that have fired. -/
theorem PassKeyInv.fire (h : PassKeyInv p os) {timer : Nat} {t : Timer}
    (ht : p.dueTimer timer = some t) :
    PassKeyInv ({ p with timers := p.timers.eraseIdx timer }.fire t.action)
      (os ++ [.fired t.action t.owner]) where
  ids := by simpa [judgedIds] using h.ids
  below := by simpa [judgedIds] using h.below
  asked s hs := by
    rw [inFlight_fire] at hs
    exact List.mem_append_left _ (h.asked s hs)
  judged j hj := by
    rcases List.mem_append.mp hj with hj | hj
    · exact List.mem_append_left _ (h.judged j hj)
    · cases List.mem_singleton.mp hj
  timers := by
    have htimer : (pending p.timers).Perm
        ((t.action, t.owner) :: pending (p.timers.eraseIdx timer)) :=
      (perm_cons_eraseIdx (getElem?_of_dueTimer ht)).map _
    rw [timers_fire, fired_append, fired_fired, judgments_append, judgments_fired,
      List.append_nil, List.append_assoc]
    exact (htimer.symm.append_left (fired os)).trans h.timers
  treasurePages := by
    rw [treasurePages_fire, fired_append, fired_fired, List.countP_append,
      List.countP_singleton]
    show p.treasurePages + _ = _
    rw [h.treasurePages]
    simp only [decide_eq_true_eq]
  messages := by
    rw [messages_fire, judgments_append, judgments_fired, List.append_nil]
    exact h.messages

end Step

/-- **Step lemma.**  Every event keeps the accounting of presses. -/
theorem passKeyInv_step (p : Except Crash PassKey) (e : PassKeyEvent)
    (os : List Outcome) (h : LivePassKeyInv p os) :
    LivePassKeyInv (step p e) (os ++ outcomes p e) := by
  cases p with
  | error c => trivial
  | ok p =>
      have hp : PassKeyInv p os := h
      have hquiet : outcomes (.ok p) e = [] → ∀ {p' : PassKey},
          p'.inFlight = p.inFlight → p'.presses = p.presses →
          p'.timers = p.timers → p'.messages = p.messages →
          p'.treasurePages = p.treasurePages →
          PassKeyInv p' (os ++ outcomes (.ok p) e) := by
        intro hout p' hinFlight hpresses htimers hmessages htreasure
        rw [hout, List.append_nil]
        exact hp.frame hinFlight hpresses htimers hmessages htreasure
      rw [step, halting_ok]
      cases e with
      | edit text => exact hquiet rfl rfl rfl rfl rfl rfl
      | textFieldShouldReturn => exact hp.press
      | respond request response =>
          cases hs : p.inFlight[request]? with
          | none =>
              simp only [PassKey.step, hs]
              exact hquiet (by simp only [outcomes, hs]) rfl rfl rfl rfl rfl
          | some s =>
              cases hcast : castPhrases response with
              | error c =>
                  simp only [PassKey.step, hs, checkKeyPhrase, hcast]
                  trivial
              | ok phrases =>
                  simp only [PassKey.step, hs, checkKeyPhrase, hcast, outcomes]
                  exact hp.respond hs phrases _
      | fire timer =>
          cases ht : p.dueTimer timer with
          | none =>
              simp only [PassKey.step, ht]
              exact hquiet (by simp only [outcomes, ht]) rfl rfl rfl rfl rfl
          | some t =>
              simp only [PassKey.step, ht, outcomes]
              exact hp.fire ht
      | tick => exact hquiet rfl rfl rfl rfl rfl rfl

/-- The page after a run, or the crash that ended it. -/
def pageAfter (es : List PassKeyEvent) : Except Crash PassKey :=
  exec step (.ok PassKey.launched) es

/-- The outcomes of a run, in order. -/
def outcomesOf (es : List PassKeyEvent) : List Outcome :=
  trace step outcomes (.ok PassKey.launched) es

/-- **Run lemma.** -/
theorem passKeyInv_run (es : List PassKeyEvent) :
    LivePassKeyInv (pageAfter es) (outcomesOf es) := by
  have h0 : LivePassKeyInv (.ok PassKey.launched) [] := passKeyInv_launched
  exact trace_inv passKeyInv_step h0 es

/-! ## Judged on the text submitted -/

/-- The response carries the three phrases as strings. -/
def CarriesPhrases : PassKeyEvent → Prop
  | .respond _ response => ∃ phrases, castPhrases response = .ok phrases
  | _ => True

instance : DecidablePred CarriesPhrases := fun e => by
  cases e <;> unfold CarriesPhrases <;> infer_instance

/-- The field still holds the text of the press that is answered, or neither
text is a phrase. -/
def StillSubmitted : Except Crash PassKey → PassKeyEvent → Prop
  | .ok p, .respond request response =>
      ∀ s ∈ p.inFlight[request]?, ∀ phrases, castPhrases response = .ok phrases →
        p.passKeyField = s.text ∨
          ¬phrases.Mem p.passKeyField ∧ ¬phrases.Mem s.text
  | _, _ => True

/-- Every press judged so far was judged once, on the text it submitted.  It has
left, among the timers fired and those still to fire, exactly what the verdict
on that text calls for: `TreasurePage` once for the password and never
otherwise, and the letters of each message.  No other timer has fired, and the
page has shown one message for each press whose text is no phrase. -/
structure JudgedAsSubmitted (p : PassKey) (os : List Outcome) : Prop where
  verdict : ∀ j, .judged j ∈ os → j.verdict = j.phrases.judge j.submission.text
  once : (judgedIds os).Nodup
  asked : ∀ j, .judged j ∈ os → .submitted j.submission ∈ os
  timers : ∀ j, .judged j ∈ os → ∀ action,
    (fired os).count (action, j.submission.id) +
        (pending p.timers).count (action, j.submission.id) =
      (j.phrases.judge j.submission.text).leaves.count action
  treasure : ∀ j, .judged j ∈ os →
    (fired os).count (.pushTreasurePage, j.submission.id) +
        (pending p.timers).count (.pushTreasurePage, j.submission.id) =
      if j.phrases.judge j.submission.text = .password then 1 else 0
  fired : ∀ action owner, (action, owner) ∈ fired os → ∃ j, .judged j ∈ os ∧
    j.submission.id = owner ∧ action ∈ (j.phrases.judge j.submission.text).leaves
  treasurePages : p.treasurePages = (PassPhrase.fired os).countP
    (·.1 = .pushTreasurePage)
  messages : p.messages = List.replicate
    ((judgments os).countP fun j => j.phrases.judge j.submission.text = .wrong)
    wrongMessage

/-- An outcome that agrees with the text submitted. -/
def Outcome.Right : Outcome → Prop
  | .judged j => j.verdict = j.phrases.judge j.submission.text
  | _ => True

theorem right_outcomes_iff (p : Except Crash PassKey) (e : PassKeyEvent) :
    (∀ o ∈ outcomes p e, o.Right) ↔ StillSubmitted p e := by
  cases p with
  | error c => simp [outcomes, StillSubmitted]
  | ok p =>
      cases e with
      | respond request response =>
          simp only [outcomes, StillSubmitted]
          cases hs : p.inFlight[request]? with
          | none => simp
          | some s =>
              cases hcast : castPhrases response with
              | error c => simp
              | ok phrases =>
                  simp only [List.mem_singleton, forall_eq, Outcome.Right,
                    Option.mem_def, Option.some.injEq, forall_eq', Except.ok.injEq]
                  exact phrases.judge_eq_judge_iff p.passKeyField s.text
      | edit text => simp [outcomes, StillSubmitted]
      | textFieldShouldReturn => simp [outcomes, StillSubmitted, Outcome.Right]
      | fire timer =>
          simp only [outcomes, StillSubmitted, iff_true]
          intro o ho
          split at ho
          · rw [List.mem_singleton.mp ho]
            trivial
          · cases ho
      | tick => simp [outcomes, StillSubmitted]

section Accounting

variable {p : PassKey} {os : List Outcome}

/-- The timers of a judged press are those of its verdict. -/
theorem PassKeyInv.count_timers (h : PassKeyInv p os) {j : Judgment}
    (hj : .judged j ∈ os) (action : TimerAction) :
    (fired os).count (action, j.submission.id) +
        (pending p.timers).count (action, j.submission.id) =
      j.verdict.leaves.count action := by
  have hnodup : (judgedIds os).Nodup := (List.nodup_append.mp h.ids).2.1
  rw [← List.count_append, h.timers.count_eq]
  exact count_scheduled hnodup (mem_judgments.mpr hj) action

/-- A timer that has fired was left by a press that was judged so. -/
theorem PassKeyInv.exists_judged (h : PassKeyInv p os) {action : TimerAction}
    {owner : Nat} (hfired : (action, owner) ∈ fired os) :
    ∃ j, .judged j ∈ os ∧ j.submission.id = owner ∧ action ∈ j.verdict.leaves := by
  have hmem : (action, owner) ∈ scheduled (judgments os) :=
    h.timers.subset (List.mem_append_left _ hfired)
  obtain ⟨j, hj, hid, haction⟩ := mem_scheduled.mp hmem
  exact ⟨j, mem_judgments.mp hj, hid, haction⟩

/-- The accounting with the verdicts the texts submitted call for. -/
theorem PassKeyInv.judgedAsSubmitted_iff (h : PassKeyInv p os) :
    JudgedAsSubmitted p os ↔ ∀ o ∈ os, o.Right := by
  constructor
  · intro hjudged o ho
    cases o with
    | judged j => exact hjudged.verdict j ho
    | submitted s => trivial
    | fired action owner => trivial
  · intro hright
    have hverdict : ∀ j, .judged j ∈ os →
        j.verdict = j.phrases.judge j.submission.text := fun j hj => hright _ hj
    refine
      { verdict := hverdict
        once := (List.nodup_append.mp h.ids).2.1
        asked := h.judged
        timers := ?_
        treasure := ?_
        fired := ?_
        treasurePages := h.treasurePages
        messages := ?_ }
    · intro j hj action
      rw [h.count_timers hj, hverdict j hj]
    · intro j hj
      rw [h.count_timers hj, count_pushTreasurePage_leaves, hverdict j hj]
    · intro action owner hfired
      obtain ⟨j, hj, hid, haction⟩ := h.exists_judged hfired
      exact ⟨j, hj, hid, hverdict j hj ▸ haction⟩
    · rw [h.messages]
      congr 1
      refine List.countP_congr ?_
      intro j hj
      rw [hverdict j (mem_judgments.mp hj)]

end Accounting

/-- Responses with the three phrases never crash the page. -/
theorem pageAfter_ok {es : List PassKeyEvent} (hes : ∀ e ∈ es, CarriesPhrases e) :
    ∃ p, pageAfter es = .ok p := by
  have hstep : ∀ (p : PassKey) (e : PassKeyEvent), CarriesPhrases e →
      ∃ q, p.step e = .ok q := by
    intro p e he
    cases e with
    | respond request response =>
        obtain ⟨phrases, hcast⟩ := he
        simp only [PassKey.step]
        cases p.inFlight[request]? with
        | none => exact ⟨_, rfl⟩
        | some s =>
            simp only [checkKeyPhrase, hcast]
            exact ⟨_, rfl⟩
    | fire timer =>
        simp only [PassKey.step]
        cases p.dueTimer timer <;> exact ⟨_, rfl⟩
    | edit text => exact ⟨_, rfl⟩
    | textFieldShouldReturn => exact ⟨_, rfl⟩
    | tick => exact ⟨_, rfl⟩
  exact exists_exec_halting hstep PassKey.launched hes

/-- **When each press is judged on the text it submitted.**  After any run of
edits, presses, responses with the three phrases and timers, the page is alive,
and every press has been judged on its own text exactly when each response
found that text, or no phrase instead of no phrase, in the field. -/
theorem judged_as_submitted_iff (es : List PassKeyEvent)
    (hes : ∀ e ∈ es, CarriesPhrases e) :
    ∃ p, pageAfter es = .ok p ∧
      (JudgedAsSubmitted p (outcomesOf es) ↔
        Along step StillSubmitted (.ok PassKey.launched) es) := by
  obtain ⟨p, hp⟩ := pageAfter_ok hes
  have hrun : LivePassKeyInv (pageAfter es) (outcomesOf es) := passKeyInv_run es
  have hinv : PassKeyInv p (outcomesOf es) := Ends.of_ok hrun hp
  refine ⟨p, hp, ?_⟩
  rw [hinv.judgedAsSubmitted_iff, outcomesOf, forall_mem_trace_iff]
  constructor
  · exact Along.mono fun p e h => (right_outcomes_iff p e).mp h
  · exact Along.mono fun p e h => (right_outcomes_iff p e).mpr h

def samplePhrases : Phrases where
  password := "accio"
  secretPassword := "miss"
  loveu := "love"

def sampleResponse : DocumentResponse :=
  .snapshot (some (Fields.ofList
    [("password", .string "accio"), ("secretpassword", .string "miss"),
      ("love", .string "love")]))

/-- One press of the password, answered, and the first letter of its message. -/
def pressOnce : List PassKeyEvent :=
  [ .edit "accio", .textFieldShouldReturn, .respond 0 sampleResponse, .fire 0 ]

theorem judged_as_submitted_pressOnce :
    ∃ p, pageAfter pressOnce = .ok p ∧ JudgedAsSubmitted p (outcomesOf pressOnce) := by
  obtain ⟨p, hp, hiff⟩ := judged_as_submitted_iff pressOnce (by decide)
  refine ⟨p, hp, hiff.mpr ⟨trivial, trivial, ?_, trivial, trivial⟩⟩
  intro s hs phrases _
  cases hs
  exact .inl rfl

/-- The password, with Return pressed twice before the first response. -/
def pressTwice : List PassKeyEvent :=
  [ .edit "accio", .textFieldShouldReturn, .textFieldShouldReturn
  , .respond 0 sampleResponse, .respond 0 sampleResponse ]

theorem pressTwice_judged_wrong :
    ¬∀ es : List PassKeyEvent, (∀ e ∈ es, CarriesPhrases e) →
      ∃ p, pageAfter es = .ok p ∧ JudgedAsSubmitted p (outcomesOf es) := by
  intro hclaim
  obtain ⟨p, -, hjudged⟩ := hclaim pressTwice (by decide)
  have hsecond : .judged
      { submission := { id := 1, text := "accio" }, phrases := samplePhrases
        verdict := .wrong } ∈ outcomesOf pressTwice := by
    decide
  have hverdict := hjudged.verdict _ hsecond
  exact absurd hverdict (by decide)

end ValentinesDay.Ports.PassPhrase
