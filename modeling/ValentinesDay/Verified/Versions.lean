import Mathlib.Logic.Function.Basic

/-!
# Histories of a state and what a late reader can rely on

A store that many parties read is kept with all versions it has had; a reader
is given *some* version that was current at or before the time of reading.

* `Always P` — no version violates `P`, so no reader sees a violation.
* `Stable P` — `P`, once true, stays true, so what any reader has seen still
  holds, and a reader of the present version has seen all there is.
-/

namespace ValentinesDay.Verified.Versions

universe u

/-- The versions of a state up to `now`. -/
structure History (σ : Type u) where
  versions : Nat → σ
  now : Nat

variable {σ : Type u}

/-- A state with no past. -/
def History.ofState (s : σ) : History σ where
  versions _ := s
  now := 0

/-- The version now. -/
def History.current (h : History σ) : σ := h.versions h.now

/-- A new current state; the past is kept. -/
def History.push (h : History σ) (s : σ) : History σ where
  versions := Function.update h.versions (h.now + 1) s
  now := h.now + 1

/-- What a reader is given: the version it asks for, at most the current one. -/
def History.read (h : History σ) (version : Nat) : σ :=
  h.versions (min version h.now)

@[simp] theorem History.current_push (h : History σ) (s : σ) :
    (h.push s).current = s := by
  simp [History.current, History.push]

@[simp] theorem History.now_push (h : History σ) (s : σ) :
    (h.push s).now = h.now + 1 := rfl

/-- A push changes no version that was current before it. -/
theorem History.versions_push_of_le {h : History σ} {version : Nat}
    (hle : version ≤ h.now) (s : σ) :
    (h.push s).versions version = h.versions version := by
  have hne : version ≠ h.now + 1 := by omega
  exact Function.update_of_ne hne _ _

theorem History.versions_push_now (h : History σ) (s : σ) :
    (h.push s).versions (h.now + 1) = s :=
  Function.update_self _ _ _

/-! ## Facts about all versions -/

/-- Every version so far satisfies `P`. -/
def History.Always (P : σ → Prop) (h : History σ) : Prop :=
  ∀ version, version ≤ h.now → P (h.versions version)

section Always

variable {P : σ → Prop} {h : History σ}

theorem History.always_ofState {s : σ} (hs : P s) : (History.ofState s).Always P :=
  fun _ _ => hs

theorem History.Always.current (hP : h.Always P) : P h.current :=
  hP h.now (Nat.le_refl h.now)

theorem History.Always.read (hP : h.Always P) (version : Nat) :
    P (h.read version) :=
  hP _ (Nat.min_le_right version h.now)

theorem History.Always.push (hP : h.Always P) {s : σ} (hs : P s) :
    (h.push s).Always P := by
  intro version hle
  by_cases hold : version ≤ h.now
  · rw [History.versions_push_of_le hold]
    exact hP version hold
  · have hnew : version = h.now + 1 := by
      rw [History.now_push] at hle
      omega
    rw [hnew, History.versions_push_now]
    exact hs

end Always

/-! ## Facts that stay true -/

/-- `P` is never lost from one version to a later one. -/
def History.Stable (P : σ → Prop) (h : History σ) : Prop :=
  ∀ i j, i ≤ j → j ≤ h.now → P (h.versions i) → P (h.versions j)

section Stable

variable {P : σ → Prop} {h : History σ}

theorem History.stable_ofState (s : σ) : (History.ofState s).Stable P :=
  fun _ _ _ _ hP => hP

/-- A push that does not lose `P` keeps it stable. -/
theorem History.Stable.push (hstable : h.Stable P) {s : σ}
    (hs : P h.current → P s) : (h.push s).Stable P := by
  intro i j hij hj hi
  rw [History.now_push] at hj
  by_cases hold : j ≤ h.now
  · have hiold : i ≤ h.now := by omega
    rw [History.versions_push_of_le hiold] at hi
    rw [History.versions_push_of_le hold]
    exact hstable i j hij hold hi
  · have hnew : j = h.now + 1 := by omega
    rw [hnew, History.versions_push_now]
    by_cases hiold : i ≤ h.now
    · rw [History.versions_push_of_le hiold] at hi
      exact hs (hstable i h.now hiold (Nat.le_refl h.now) hi)
    · have hinew : i = h.now + 1 := by omega
      rw [hinew, History.versions_push_now] at hi
      exact hi

end Stable

end ValentinesDay.Verified.Versions
