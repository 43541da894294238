import Mathlib.Logic.Basic

/-!
# Computations that can fail

Rules for programs in `Except`, so that a proof about one need not unfold its
binds.  Nothing below mentions a particular program or error.

## Main results

* `bind_eq_ok_iff`, `bind_eq_error_iff` — what a sequence of steps went
  through.
* `exists_bind_iff` — when a sequence returns, part by part.
* `exists_mapM` — a list worked off without failure.
* `Ends.bind` — the rule of sequential composition for `Ends`.
-/

namespace ValentinesDay.Verified.Fallible

universe u v

variable {κ : Type u} {α β : Type v}

@[simp] theorem pure_eq_ok (a : α) : (pure a : Except κ α) = .ok a := rfl

/-- A sequence that returned went through both of its parts. -/
theorem bind_eq_ok_iff {p : Except κ α} {f : α → Except κ β} {b : β} :
    (p >>= f) = .ok b ↔ ∃ a, p = .ok a ∧ f a = .ok b := by
  cases p with
  | error c => simp [bind, Except.bind]
  | ok a => simp [bind, Except.bind]

/-- A sequence that failed did so in its first part or after it. -/
theorem bind_eq_error_iff {p : Except κ α} {f : α → Except κ β} {c : κ} :
    (p >>= f) = .error c ↔ p = .error c ∨ ∃ a, p = .ok a ∧ f a = .error c := by
  cases p with
  | error c' => simp [bind, Except.bind]
  | ok a => simp [bind, Except.bind]

/-! ## When a computation returns -/

/-- What continues without failing returns when its first part does. -/
theorem exists_bind_pure_iff {p : Except κ α} {f : α → β} :
    (∃ b, (p >>= fun a => pure (f a)) = .ok b) ↔ ∃ a, p = .ok a := by
  simp only [bind_eq_ok_iff, pure_eq_ok, Except.ok.injEq]
  constructor
  · rintro ⟨b, a, ha, -⟩
    exact ⟨a, ha⟩
  · rintro ⟨a, ha⟩
    exact ⟨f a, a, ha, rfl⟩

/-- Two parts in a row return when each does. -/
theorem exists_bind_iff {p : Except κ α} {f : α → Except κ β} {Q : Prop}
    (hf : ∀ a, p = .ok a → ((∃ b, f a = .ok b) ↔ Q)) :
    (∃ b, (p >>= f) = .ok b) ↔ (∃ a, p = .ok a) ∧ Q := by
  simp only [bind_eq_ok_iff]
  constructor
  · rintro ⟨b, a, ha, hb⟩
    exact ⟨⟨a, ha⟩, (hf a ha).mp ⟨b, hb⟩⟩
  · rintro ⟨⟨a, ha⟩, hq⟩
    obtain ⟨b, hb⟩ := (hf a ha).mpr hq
    exact ⟨b, a, ha, hb⟩

/-- One after the other, where none fails. -/
theorem exists_mapM {f : α → Except κ β} {P : β → Prop} {as : List α}
    (h : ∀ a ∈ as, ∃ b, f a = .ok b ∧ P b) :
    ∃ bs, as.mapM f = .ok bs ∧ bs.length = as.length ∧ ∀ b ∈ bs, P b := by
  induction as with
  | nil => exact ⟨[], rfl, rfl, fun b hb => absurd hb List.not_mem_nil⟩
  | cons a as ih =>
      obtain ⟨ha, has⟩ := List.forall_mem_cons.mp h
      obtain ⟨b, hb, hP⟩ := ha
      obtain ⟨bs, hbs, hlength, hPs⟩ := ih has
      refine ⟨b :: bs, ?_, congrArg (· + 1) hlength, List.forall_mem_cons.mpr ⟨hP, hPs⟩⟩
      rw [List.mapM_cons, hb, hbs]
      rfl

theorem isOk_iff_exists {p : Except κ α} : p.isOk ↔ ∃ a, p = .ok a := by
  cases p with
  | error c => simp [Except.isOk, Except.toBool]
  | ok a => simp [Except.isOk, Except.toBool]

instance decidableExistsOk (p : Except κ α) : Decidable (∃ a, p = .ok a) :=
  decidable_of_iff p.isOk isOk_iff_exists

/-! ## How a computation ends -/

/-- The computation ends with a result in `P` or with an error in `E`. -/
def Ends (P : α → Prop) (E : κ → Prop) : Except κ α → Prop
  | .ok a => P a
  | .error c => E c

section Ends

variable {P : α → Prop} {Q : β → Prop} {E : κ → Prop}

theorem Ends.bind {p : Except κ α} {f : α → Except κ β} (hp : Ends P E p)
    (hf : ∀ a, P a → Ends Q E (f a)) : Ends Q E (p >>= f) := by
  cases p with
  | error c => exact hp
  | ok a => exact hf a hp

theorem Ends.mono {P' : α → Prop} {p : Except κ α} (hp : Ends P E p)
    (hP : ∀ a, P a → P' a) : Ends P' E p := by
  cases p with
  | error c => exact hp
  | ok a => exact hP a hp

/-- A computation that can end in no error returns. -/
theorem Ends.exists_ok {p : Except κ α} (h : Ends P (fun _ => False) p) :
    ∃ a, p = .ok a ∧ P a := by
  cases p with
  | error c => exact False.elim h
  | ok a => exact ⟨a, rfl, h⟩

theorem Ends.of_ok {p : Except κ α} (h : Ends P E p) {a : α} (hp : p = .ok a) :
    P a := by
  rw [hp] at h
  exact h

theorem Ends.of_error {p : Except κ α} (h : Ends P E p) {c : κ}
    (hp : p = .error c) : E c := by
  rw [hp] at h
  exact h

end Ends

end ValentinesDay.Verified.Fallible
