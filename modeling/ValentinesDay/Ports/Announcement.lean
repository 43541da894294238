import ValentinesDay.Ports.PlayerProgress

/-!
# "You found all the clues!"

`giveQRCodeValue` announces the end of the hunt for the code of `Clue10` and
for no other, whatever has been found before.

## Main results

* `announcement_truthful_iff` — the announcement is true in exactly the runs
  that come to `Clue10` with every other clue unlocked or scanned.
-/

namespace ValentinesDay.Ports.Announcement

open ValentinesDay.Verified.Run
open ValentinesDay.Ports.Runtime
open ValentinesDay.Ports.Firestore
open ValentinesDay.Ports.Persistence
open ValentinesDay.Ports.HomePage
open ValentinesDay.Ports.Riddle
open ValentinesDay.Ports.Lifecycle
open ValentinesDay.Ports.PlayerProgress

/-- The event shows `FoundAllMessage`. -/
def AnnouncesAllFound (app : App) (e : AppEvent) : Prop :=
  ∃ effects clue, app.effects e = .ok effects ∧
    .showMessage (foundAllMessage clue) ∈ effects

/-- Every clue document of the store is unlocked. -/
def AllUnlocked (store : Store) : Prop :=
  ∀ clue, IsClue store clue → Unlocked store clue

/-- The announcement, if the event makes it, holds of the store it leaves. -/
def Truthful (bundle : InstalledBundle) (base : BaseStyle) (app : App)
    (e : AppEvent) : Prop :=
  AnnouncesAllFound app e → AllUnlocked (app.step bundle base e).server.current

/-! ## Which event announces it -/

theorem demoCentered_ne_foundAllMessage (value clue : String) :
    demoCentered value ≠ foundAllMessage clue := by
  simp [demoCentered, foundAllMessage]

theorem not_mem_checkAnswer {view : ClueView} {effects : List Effect}
    (h : checkAnswer view = .ok effects) (clue : String) :
    .showMessage (foundAllMessage clue) ∉ effects := by
  have hsuccess : foundAllMessage clue ≠ showSuccess := by
    simp [showSuccess, foundAllMessage]
  have htry : foundAllMessage clue ≠ tryAgainMessage := by
    simp [tryAgainMessage, foundAllMessage]
  rcases checkAnswer_cases h with rfl | rfl | ⟨ref, rfl⟩
  · simp [htry]
  · simp
  · simp [hsuccess]

theorem announcesAllFound_iff {app : App} {e : AppEvent} :
    AnnouncesAllFound app e ↔ app.process.isOk ∧ e = .scan "Clue10" := by
  constructor
  · rintro ⟨effects, clue, heffects, hmem⟩
    rcases effects_cases app e with
      hquiet | ⟨value, hlive, rfl, hscan⟩ | ⟨s, view, c, -, -, -, hcheck⟩
    · rw [hquiet] at heffects
      cases heffects
      simp at hmem
    · rw [hscan] at heffects
      rcases giveQRCodeValue_cases heffects with ⟨rfl, -⟩ | ⟨-, ref, -, rfl⟩
      · exact ⟨hlive, rfl⟩
      · have hne := demoCentered_ne_foundAllMessage value clue
        simp [hne.symm] at hmem
    · rw [hcheck] at heffects
      exact absurd hmem (not_mem_checkAnswer heffects clue)
  · rintro ⟨hlive, rfl⟩
    cases hprocess : app.process with
    | error c =>
        rw [hprocess] at hlive
        cases hlive
    | ok s =>
        have heffects : app.effects (.scan "Clue10") =
            .ok [ .write (.updateData (clueKey "Clue10") "Locked" (.bool false))
                , .showMessage (foundAllMessage "Clue10") ] := by
          simp only [App.effects, hprocess]
          exact giveQRCodeValue_clue10
        exact ⟨_, "Clue10", heffects, by simp⟩

/-! ## When it is true -/

section Run

variable {bundle : InstalledBundle} {base : BaseStyle} {store0 : Store}
  {es : List AppEvent}

/-- A scan of `Clue10` by a live process adds one action. -/
theorem playerActions_scan_clue10 {pre : List AppEvent}
    (hlive : (appAfter bundle base store0 pre).process.isOk) :
    playerActions bundle base store0 (pre ++ [.scan "Clue10"]) =
      playerActions bundle base store0 pre ++ [.scanned "Clue10"] := by
  have hone : actions (appAfter bundle base store0 pre) (.scan "Clue10") =
      [.scanned "Clue10"] := by
    cases hprocess : (appAfter bundle base store0 pre).process with
    | error c =>
        rw [hprocess] at hlive
        cases hlive
    | ok s => simp only [actions, hprocess]
  unfold playerActions
  rw [trace_append, trace_cons, trace_nil, List.append_nil]
  unfold appAfter at hone
  rw [hone]

/-- What the announcement at the end of `pre` says about the run so far. -/
theorem allUnlocked_scan_clue10_iff {pre : List AppEvent}
    (hes : ∀ e ∈ pre ++ [.scan "Clue10"], ExistingClue store0 e)
    (hlive : (appAfter bundle base store0 pre).process.isOk) :
    AllUnlocked (appAfter bundle base store0
        (pre ++ [.scan "Clue10"])).server.current ↔
      ∀ clue, IsClue store0 clue → clue ≠ "Clue10" →
        Unlocked store0 clue ∨
          .scanned clue ∈ playerActions bundle base store0 pre := by
  have hrun : Reflects store0
      (Progress.after (playerActions bundle base store0 (pre ++ [.scan "Clue10"])))
      (appAfter bundle base store0 (pre ++ [.scan "Clue10"])).server.current :=
    reflects_run hes
  rw [playerActions_scan_clue10 hlive] at hrun
  constructor
  · intro hall clue hclue hne
    have hunlocked := hall clue ((hrun.isClue_iff clue).mpr hclue)
    rw [hrun.unlocked_iff, unlocked_after, List.mem_append] at hunlocked
    rcases hunlocked with h0 | hbefore | hnow
    · exact .inl h0
    · exact .inr hbefore
    · simp only [List.mem_singleton, Action.scanned.injEq] at hnow
      exact absurd hnow hne
  · intro hall clue hclue
    rw [hrun.unlocked_iff, unlocked_after, List.mem_append]
    by_cases hne : clue = "Clue10"
    · rw [hne]
      exact .inr (.inr (List.mem_singleton_self _))
    · rcases hall clue ((hrun.isClue_iff clue).mp hclue) hne with h0 | hbefore
      · exact .inl h0
      · exact .inr (.inl hbefore)

end Run

/-- **When the announcement is truthful.**  A run on existing clues announces
the end of the hunt only in states with every clue unlocked exactly when, at
each scan of `Clue10`, every other clue was unlocked at the start or scanned
before. -/
theorem announcement_truthful_iff (bundle : InstalledBundle) (base : BaseStyle)
    (store0 : Store) (es : List AppEvent) (hes : ∀ e ∈ es, ExistingClue store0 e) :
    Along (App.step bundle base) (Truthful bundle base) (App.launched store0) es ↔
      ∀ pre, pre ++ [.scan "Clue10"] <+: es →
        (appAfter bundle base store0 pre).process.isOk →
        ∀ clue, IsClue store0 clue → clue ≠ "Clue10" →
          Unlocked store0 clue ∨
            .scanned clue ∈ playerActions bundle base store0 pre := by
  have hearlier : ∀ {pre : List AppEvent} {e : AppEvent}, pre ++ [e] <+: es →
      ∀ e' ∈ pre ++ [e], ExistingClue store0 e' := by
    intro pre e hpre e' he'
    exact hes e' (hpre.subset he')
  have hstep : ∀ (pre : List AppEvent) (e : AppEvent),
      (appAfter bundle base store0 pre).step bundle base e =
        appAfter bundle base store0 (pre ++ [e]) := by
    intro pre e
    unfold appAfter
    rw [exec_append, exec_cons, exec_nil]
  rw [along_iff_prefixes]
  constructor
  · intro htrue pre hpre hlive
    have hnow := htrue pre (.scan "Clue10") hpre
      (announcesAllFound_iff.mpr ⟨hlive, rfl⟩)
    have hafter := hstep pre (.scan "Clue10")
    rw [appAfter] at hafter
    rw [hafter] at hnow
    exact (allUnlocked_scan_clue10_iff (hearlier hpre) hlive).mp hnow
  · intro hall pre e hpre hannounces
    obtain ⟨hlive, rfl⟩ := announcesAllFound_iff.mp hannounces
    have hafter := hstep pre (.scan "Clue10")
    rw [appAfter] at hafter
    rw [hafter]
    exact (allUnlocked_scan_clue10_iff (hearlier hpre) hlive).mpr
      (hall pre hpre hlive)

/-- Both clues of the hunt, the last one last. -/
def scanInOrder : List AppEvent := [.scan "Clue1", .launch, .scan "Clue10"]

theorem isClue_huntStore {clue : String} (h : IsClue huntStore clue) :
    clue = "Clue1" ∨ clue = "Clue10" := by
  by_contra hne
  obtain ⟨hfirst, hlast⟩ := not_or.mp hne
  have hkey : ∀ {name : String}, clue ≠ name → clueKey clue ≠ clueKey name := by
    intro name hname heq
    exact hname (by simpa [clueKey] using congrArg DocumentKey.path heq)
  have hlookup : huntStore.lookup (clueKey clue) = none := by
    unfold huntStore
    rw [AList.lookup_insert_ne (clueKey_ne_lastPathKey clue),
      AList.lookup_insert_ne (hkey hlast), AList.lookup_insert_ne (hkey hfirst)]
    rfl
  have hsome := h.found
  rw [hlookup] at hsome
  cases hsome

/-- Played in order, the hunt is announced at the end, and truthfully. -/
theorem announcement_truthful_scanInOrder :
    Along (App.step sampleBundle emptyStyle) (Truthful sampleBundle emptyStyle)
        (App.launched huntStore) scanInOrder ∧
      AnnouncesAllFound (appAfter sampleBundle emptyStyle huntStore
        [.scan "Clue1", .launch]) (.scan "Clue10") := by
  refine ⟨(announcement_truthful_iff sampleBundle emptyStyle huntStore scanInOrder
    (by decide)).mpr ?_, announcesAllFound_iff.mpr ⟨rfl, rfl⟩⟩
  intro pre hpre _ clue hclue hne
  have hclue1 : clue = "Clue1" := (isClue_huntStore hclue).resolve_right hne
  have hlength : pre.length = 2 := by
    obtain ⟨post, hpost⟩ := hpre
    rcases pre with _ | ⟨e₁, _ | ⟨e₂, _ | ⟨e₃, pre⟩⟩⟩
    · simp [scanInOrder] at hpost
    · simp [scanInOrder] at hpost
    · rfl
    · simp [scanInOrder] at hpost
  have heq : pre = [.scan "Clue1", .launch] := by
    have htake := List.prefix_iff_eq_take.mp ((List.prefix_append pre _).trans hpre)
    rw [hlength] at htake
    exact htake
  rw [hclue1, heq]
  exact .inr (by decide)

theorem clue10_first_announced_untruthfully :
    ¬∀ (bundle : InstalledBundle) (base : BaseStyle) (store0 : Store)
      (es : List AppEvent), (∀ e ∈ es, ExistingClue store0 e) →
      Along (App.step bundle base) (Truthful bundle base)
        (App.launched store0) es := by
  intro hclaim
  have htrue := (hclaim sampleBundle emptyStyle huntStore [.scan "Clue10"]
    (by decide)).1
  have hannounces : AnnouncesAllFound (App.launched huntStore) (.scan "Clue10") :=
    announcesAllFound_iff.mpr ⟨rfl, rfl⟩
  have hclue1 := htrue hannounces "Clue1" (by decide)
  have hlocked : (field ((App.launched huntStore).step sampleBundle emptyStyle
      (.scan "Clue10")).server.current (clueKey "Clue1") "Locked").bind
      Value.asBool = some true := rfl
  rw [Unlocked, hlocked] at hclue1
  cases hclue1

end ValentinesDay.Ports.Announcement
