import Mathlib.Data.List.Basic
import Mathlib.Data.List.Infix
import ValentinesDay.Verified.Fallible

/-!
# Runs of an event-driven machine

A machine here is a *total* step `σ → ε → σ`: an event the state does not
offer is a no-op, so a run is simply a list of events and every interleaving
of the parties is one such list.  Nothing below mentions a particular machine.

## Main results

* `throughout_of_guard` — an invariant that one step preserves under a
  condition holds in every state of a run whose steps all meet the condition.
* `along_of_guard` — the same for a property of the steps themselves.
* `throughout_iff_along` — the exact form: when each step's condition is also
  necessary, a property of all reached states is equivalent to the condition
  on all steps.
* `exec_trace_inv`, `trace_inv` — invariants that tie the state to what the run
  has emitted.
* `exec_refines` — a machine whose steps are answered by replaying their
  outputs on an abstract machine refines the abstract fold of its trace.
* `throughout_refines_iff` — and then both reach only good states, or neither.
* `ends_halting` — the step rule of machines that can stop.
* `exec_halting_simulates` — such a machine does not stop while an abstract one
  allows its events.
-/

namespace ValentinesDay.Verified.Run

open ValentinesDay.Verified.Fallible

universe u v w x

variable {σ : Type u} {ε : Type v} {ι : Type w}

/-- The state a list of events leads to. -/
def exec (step : σ → ε → σ) (s : σ) (es : List ε) : σ := es.foldl step s

@[simp] theorem exec_nil (step : σ → ε → σ) (s : σ) : exec step s [] = s := rfl

@[simp] theorem exec_cons (step : σ → ε → σ) (s : σ) (e : ε) (es : List ε) :
    exec step s (e :: es) = exec step (step s e) es := rfl

theorem exec_append (step : σ → ε → σ) (s : σ) (es fs : List ε) :
    exec step s (es ++ fs) = exec step (exec step s es) fs :=
  List.foldl_append

/-- A component with steps of its own runs by itself. -/
theorem exec_map {τ : Type x} {step : σ → ε → σ} {step' : τ → ε → τ} (g : σ → τ)
    (h : ∀ s e, g (step s e) = step' (g s) e) (s : σ) (es : List ε) :
    g (exec step s es) = exec step' (g s) es := by
  induction es generalizing s with
  | nil => rfl
  | cons e es ih => rw [exec_cons, exec_cons, ih, h]

/-! ## Properties of the steps and of the states of a run -/

/-- Every step of the run, seen from the state it starts in, satisfies `C`. -/
def Along (step : σ → ε → σ) (C : σ → ε → Prop) : σ → List ε → Prop
  | _, [] => True
  | s, e :: es => C s e ∧ Along step C (step s e) es

/-- Every state of the run, the first and the last included, satisfies `P`. -/
def Throughout (step : σ → ε → σ) (P : σ → Prop) : σ → List ε → Prop
  | s, [] => P s
  | s, e :: es => P s ∧ Throughout step P (step s e) es

instance decidableAlong (step : σ → ε → σ) (C : σ → ε → Prop)
    [∀ s e, Decidable (C s e)] : ∀ s es, Decidable (Along step C s es)
  | _, [] => inferInstanceAs (Decidable True)
  | s, e :: es =>
      have := decidableAlong step C (step s e) es
      inferInstanceAs (Decidable (C s e ∧ Along step C (step s e) es))

instance decidableThroughout (step : σ → ε → σ) (P : σ → Prop)
    [∀ s, Decidable (P s)] : ∀ s es, Decidable (Throughout step P s es)
  | s, [] => inferInstanceAs (Decidable (P s))
  | s, e :: es =>
      have := decidableThroughout step P (step s e) es
      inferInstanceAs (Decidable (P s ∧ Throughout step P (step s e) es))

section Basic

variable {step : σ → ε → σ}

theorem Throughout.first {P : σ → Prop} {s : σ} {es : List ε}
    (h : Throughout step P s es) : P s := by
  cases es with
  | nil => exact h
  | cons e es => exact h.1

theorem Throughout.last {P : σ → Prop} {s : σ} {es : List ε}
    (h : Throughout step P s es) : P (exec step s es) := by
  induction es generalizing s with
  | nil => exact h
  | cons e es ih => exact ih h.2

theorem Throughout.mono {P Q : σ → Prop} (hPQ : ∀ s, P s → Q s) {s : σ}
    {es : List ε} (h : Throughout step P s es) : Throughout step Q s es := by
  induction es generalizing s with
  | nil => exact hPQ s h
  | cons e es ih => exact ⟨hPQ s h.1, ih h.2⟩

/-- The states of a run are the ends of its prefixes. -/
theorem throughout_iff_prefixes {P : σ → Prop} {s : σ} {es : List ε} :
    Throughout step P s es ↔ ∀ pre, pre <+: es → P (exec step s pre) := by
  induction es generalizing s with
  | nil =>
      constructor
      · intro h pre hpre
        rw [List.prefix_nil.mp hpre]
        exact h
      · intro h
        exact h [] (List.prefix_refl [])
  | cons e es ih =>
      constructor
      · rintro ⟨hs, hrest⟩ pre hpre
        cases pre with
        | nil => exact hs
        | cons e' pre =>
            obtain ⟨rfl, htail⟩ := List.cons_prefix_cons.mp hpre
            exact ih.mp hrest pre htail
      · intro h
        refine ⟨h [] List.nil_prefix, ih.mpr ?_⟩
        intro pre hpre
        exact h (e :: pre) (List.cons_prefix_cons.mpr ⟨rfl, hpre⟩)

theorem Along.mono {C D : σ → ε → Prop} (hCD : ∀ s e, C s e → D s e) {s : σ}
    {es : List ε} (h : Along step C s es) : Along step D s es := by
  induction es generalizing s with
  | nil => trivial
  | cons e es ih => exact ⟨hCD s e h.1, ih h.2⟩

theorem along_and {C D : σ → ε → Prop} {s : σ} {es : List ε} :
    Along step (fun s e => C s e ∧ D s e) s es ↔
      Along step C s es ∧ Along step D s es := by
  induction es generalizing s with
  | nil => simp [Along]
  | cons e es ih =>
      simp only [Along, ih]
      constructor
      · rintro ⟨⟨hc, hd⟩, hcs, hds⟩
        exact ⟨⟨hc, hcs⟩, hd, hds⟩
      · rintro ⟨⟨hc, hcs⟩, hd, hds⟩
        exact ⟨⟨hc, hd⟩, hcs, hds⟩

/-- The steps of a run are the last steps of its nonempty prefixes. -/
theorem along_iff_prefixes {C : σ → ε → Prop} {s : σ} {es : List ε} :
    Along step C s es ↔
      ∀ pre e, pre ++ [e] <+: es → C (exec step s pre) e := by
  induction es generalizing s with
  | nil =>
      constructor
      · intro _ pre e hpre
        simp at hpre
      · intro _
        trivial
  | cons e es ih =>
      constructor
      · intro h pre e' hpre
        cases pre with
        | nil =>
            obtain ⟨rfl, -⟩ := List.cons_prefix_cons.mp hpre
            exact h.1
        | cons e₀ pre =>
            obtain ⟨rfl, htail⟩ := List.cons_prefix_cons.mp hpre
            exact ih.mp h.2 pre e' htail
      · intro h
        refine ⟨h [] e (List.cons_prefix_cons.mpr ⟨rfl, List.nil_prefix⟩), ih.mpr ?_⟩
        intro pre e' hpre
        exact h (e :: pre) e' (List.cons_prefix_cons.mpr ⟨rfl, hpre⟩)

theorem Along.of_isPrefix {C : σ → ε → Prop} {s : σ} {pre es : List ε}
    (hpre : pre <+: es) (h : Along step C s es) : Along step C s pre := by
  rw [along_iff_prefixes] at h ⊢
  intro pre' e hpre'
  exact h pre' e (hpre'.trans hpre)

theorem along_of_forall {C : σ → ε → Prop} (h : ∀ s e, C s e) (s : σ)
    (es : List ε) : Along step C s es := by
  induction es generalizing s with
  | nil => trivial
  | cons e es ih => exact ⟨h s e, ih (step s e)⟩

/-- A condition that reads the event alone is a condition on the list. -/
theorem along_event_iff {C : ε → Prop} {s : σ} {es : List ε} :
    Along step (fun _ e => C e) s es ↔ ∀ e ∈ es, C e := by
  induction es generalizing s with
  | nil => simp [Along]
  | cons e es ih => simp only [Along, ih, List.forall_mem_cons]

end Basic

/-! ## Invariant rules -/

section Invariant

variable {step : σ → ε → σ} {I : σ → Prop} {C : σ → ε → Prop}

/-- An invariant that holds at the start, and that every step meeting `C`
preserves, holds throughout a run whose steps meet `C`. -/
theorem throughout_of_guard (hstep : ∀ s e, I s → C s e → I (step s e))
    {s : σ} {es : List ε} (h0 : I s) (hC : Along step C s es) :
    Throughout step I s es := by
  induction es generalizing s with
  | nil => exact h0
  | cons e es ih => exact ⟨h0, ih (hstep s e h0 hC.1) hC.2⟩

/-- What every guarded step from an invariant state does, every step of a
guarded run does. -/
theorem along_of_guard {D : σ → ε → Prop}
    (hstep : ∀ s e, I s → C s e → I (step s e))
    (hD : ∀ s e, I s → C s e → D s e)
    {s : σ} {es : List ε} (h0 : I s) (hC : Along step C s es) :
    Along step D s es := by
  induction es generalizing s with
  | nil => trivial
  | cons e es ih => exact ⟨hD s e h0 hC.1, ih (hstep s e h0 hC.1) hC.2⟩

/-- **Exactness.**  If `C` makes a step preserve the invariant, and a step
that ends in a `P` state must have met `C`, then `P` holds throughout a run
exactly when `C` holds along it. -/
theorem throughout_iff_along {P : σ → Prop}
    (hIP : ∀ s, I s → P s)
    (hstep : ∀ s e, I s → C s e → I (step s e))
    (hnec : ∀ s e, I s → P (step s e) → C s e)
    {s : σ} (h0 : I s) (es : List ε) :
    Throughout step P s es ↔ Along step C s es := by
  constructor
  · intro h
    induction es generalizing s with
    | nil => trivial
    | cons e es ih =>
        have hC : C s e := hnec s e h0 h.2.first
        exact ⟨hC, ih (hstep s e h0 hC) h.2⟩
  · intro hC
    exact (throughout_of_guard hstep h0 hC).mono hIP

end Invariant

/-! ## What a run emits -/

/-- The outputs of the steps of a run, in order. -/
def trace (step : σ → ε → σ) (out : σ → ε → List ι) : σ → List ε → List ι
  | _, [] => []
  | s, e :: es => out s e ++ trace step out (step s e) es

section Trace

variable {step : σ → ε → σ} {out : σ → ε → List ι}

@[simp] theorem trace_nil (s : σ) : trace step out s [] = [] := rfl

@[simp] theorem trace_cons (s : σ) (e : ε) (es : List ε) :
    trace step out s (e :: es) = out s e ++ trace step out (step s e) es := rfl

theorem trace_append (s : σ) (es fs : List ε) :
    trace step out s (es ++ fs) =
      trace step out s es ++ trace step out (exec step s es) fs := by
  induction es generalizing s with
  | nil => rfl
  | cons e es ih => simp only [List.cons_append, trace_cons, ih, exec_cons,
      List.append_assoc]

/-- Outputs that read the event alone are those of the list of events. -/
theorem trace_event (f : ε → List ι) (s : σ) (es : List ε) :
    trace step (fun _ e => f e) s es = es.flatMap f := by
  induction es generalizing s with
  | nil => rfl
  | cons e es ih => rw [trace_cons, List.flatMap_cons, ih]

/-- A run emits nothing exactly when none of its steps does. -/
theorem trace_eq_nil_iff {s : σ} {es : List ε} :
    trace step out s es = [] ↔ Along step (fun s e => out s e = []) s es := by
  induction es generalizing s with
  | nil => simp [Along]
  | cons e es ih => simp only [trace_cons, List.append_eq_nil_iff, Along, ih]

/-- Everything a run emits satisfies `Q` exactly when each step's output does. -/
theorem forall_mem_trace_iff {Q : ι → Prop} {s : σ} {es : List ε} :
    (∀ o ∈ trace step out s es, Q o) ↔
      Along step (fun s e => ∀ o ∈ out s e, Q o) s es := by
  induction es generalizing s with
  | nil => simp [Along]
  | cons e es ih => simp only [trace_cons, List.forall_mem_append, Along, ih]

theorem trace_map {κ : Type x} (f : ι → κ) (s : σ) (es : List ε) :
    (trace step out s es).map f = trace step (fun s e => (out s e).map f) s es := by
  induction es generalizing s with
  | nil => rfl
  | cons e es ih => simp only [trace_cons, List.map_append, ih]

theorem trace_filterMap {κ : Type x} (f : ι → Option κ) (s : σ) (es : List ε) :
    (trace step out s es).filterMap f =
      trace step (fun s e => (out s e).filterMap f) s es := by
  induction es generalizing s with
  | nil => rfl
  | cons e es ih => simp only [trace_cons, List.filterMap_append, ih]

/-- Outputs that are, step by step, what each output of another kind stands for,
are so over the whole run. -/
theorem trace_flatMap {κ : Type x} {f : ι → List κ} {out' : σ → ε → List κ} {s : σ}
    {es : List ε} (h : Along step (fun s e => out' s e = (out s e).flatMap f) s es) :
    trace step out' s es = (trace step out s es).flatMap f := by
  induction es generalizing s with
  | nil => rfl
  | cons e es ih => rw [trace_cons, trace_cons, List.flatMap_append, h.1, ih h.2]

theorem trace_isPrefix {s : σ} {pre es : List ε} (hpre : pre <+: es) :
    trace step out s pre <+: trace step out s es := by
  obtain ⟨post, rfl⟩ := hpre
  rw [trace_append]
  exact List.prefix_append _ _

/-- An invariant of the state *and* of everything emitted so far. -/
theorem exec_trace_inv {I : σ → List ι → Prop} {C : σ → ε → Prop}
    (hstep : ∀ s e acc, I s acc → C s e → I (step s e) (acc ++ out s e))
    {s : σ} {acc : List ι} (h0 : I s acc) {es : List ε}
    (hC : Along step C s es) :
    I (exec step s es) (acc ++ trace step out s es) := by
  induction es generalizing s acc with
  | nil => simpa using h0
  | cons e es ih =>
      have hnext := ih (hstep s e acc h0 hC.1) hC.2
      simpa only [exec_cons, trace_cons, List.append_assoc] using hnext

/-- The rule for a run that starts with nothing emitted. -/
theorem trace_inv_of_along {I : σ → List ι → Prop} {C : σ → ε → Prop}
    (hstep : ∀ s e acc, I s acc → C s e → I (step s e) (acc ++ out s e))
    {s : σ} (h0 : I s []) {es : List ε} (hC : Along step C s es) :
    I (exec step s es) (trace step out s es) := by
  have hrun := exec_trace_inv hstep h0 hC
  rwa [List.nil_append] at hrun

/-- An invariant that every step keeps. -/
theorem trace_inv {I : σ → List ι → Prop}
    (hstep : ∀ s e acc, I s acc → I (step s e) (acc ++ out s e))
    {s : σ} (h0 : I s []) (es : List ε) :
    I (exec step s es) (trace step out s es) := by
  have hany : Along step (fun _ _ => True) s es := along_of_forall (fun _ _ => trivial) s es
  exact trace_inv_of_along (fun s e acc h _ => hstep s e acc h) h0 hany

/-- **Refinement.**  If, from every related pair, a step is answered by the
abstract machine replaying the step's outputs, then a whole run is answered by
replaying its trace. -/
theorem exec_refines {τ : Type x} {R : σ → τ → Prop} {C : σ → ε → Prop}
    {astep : τ → ι → τ}
    (hsim : ∀ s e t, R s t → C s e → R (step s e) ((out s e).foldl astep t))
    {s : σ} {t : τ} (h0 : R s t) {es : List ε} (hC : Along step C s es) :
    R (exec step s es) ((trace step out s es).foldl astep t) := by
  induction es generalizing s t with
  | nil => exact h0
  | cons e es ih =>
      have hnext := ih (hsim s e t h0 hC.1) hC.2
      rw [exec_cons, trace_cons, List.foldl_append]
      exact hnext

/-- A machine whose every step is one abstract step or none reaches only `P`
states exactly when its trace reaches only `Q` states.  The simulation may
assume that no bad state was met so far. -/
theorem throughout_refines_iff {τ : Type x} {R : σ → τ → Prop} {P : σ → Prop}
    {Q : τ → Prop} {astep : τ → ι → τ}
    (hPQ : ∀ s t, R s t → (P s ↔ Q t))
    (hone : ∀ s e, (out s e).length ≤ 1)
    (hsim : ∀ s e t, R s t → Q t → R (step s e) ((out s e).foldl astep t))
    {s : σ} {t : τ} (h0 : R s t) (es : List ε) :
    Throughout step P s es ↔ Throughout astep Q t (trace step out s es) := by
  induction es generalizing s t with
  | nil => exact hPQ s t h0
  | cons e es ih =>
      by_cases hQ : Q t
      · have hP : P s := (hPQ s t h0).mpr hQ
        have hrest := ih (hsim s e t h0 hQ)
        rw [trace_cons]
        match hout : out s e with
        | [] =>
            rw [hout] at hrest
            exact (and_iff_right hP).trans hrest
        | [o] =>
            rw [hout] at hrest
            exact (and_iff_right hP).trans (hrest.trans (and_iff_right hQ).symm)
        | o₁ :: o₂ :: os =>
            have hlength := hone s e
            rw [hout] at hlength
            simp at hlength
      · have hP : ¬P s := fun h => hQ ((hPQ s t h0).mp h)
        constructor
        · intro h
          exact absurd h.first hP
        · intro h
          exact absurd h.first hQ

end Trace

/-! ## Machines that can stop

A step that may fail is run on `Except κ σ`; once failed, the machine stays
where it failed. -/

/-- Lift a fallible step to a total one. -/
def halting {κ : Type x} (step : σ → ε → Except κ σ) (p : Except κ σ) (e : ε) :
    Except κ σ :=
  p.bind fun s => step s e

section Halting

variable {κ : Type x} {step : σ → ε → Except κ σ}

@[simp] theorem halting_ok (s : σ) (e : ε) :
    halting step (.ok s) e = step s e := rfl

@[simp] theorem halting_error (c : κ) (e : ε) :
    halting step (.error c) e = .error c := rfl

/-- One step of a machine that may stop, from the states it can be alive in. -/
theorem ends_halting {P Q : σ → Prop} {E : κ → Prop} {p : Except κ σ} {e : ε}
    (hp : Ends P E p) (hstep : ∀ s, p = .ok s → P s → Ends Q E (step s e)) :
    Ends Q E (halting step p e) := by
  cases p with
  | error c => exact hp
  | ok s => exact hstep s rfl hp

/-- A failed machine stays failed over a whole run. -/
theorem foldl_halting_error (c : κ) (es : List ε) :
    es.foldl (halting step) (.error c) = .error c := by
  induction es with
  | nil => rfl
  | cons e es ih => exact ih

/-- A run that stops at the first failure is the monadic fold. -/
theorem foldl_halting_ok (s : σ) (es : List ε) :
    es.foldl (halting step) (.ok s) = es.foldlM step s := by
  induction es generalizing s with
  | nil => rfl
  | cons e es ih =>
      rw [List.foldl_cons, List.foldlM_cons, halting_ok]
      cases step s e with
      | error c => exact foldl_halting_error c es
      | ok s' => exact ih s'

/-- A machine that no event of the list can stop gets through the list. -/
theorem exists_exec_halting {C : ε → Prop}
    (hstep : ∀ s e, C e → ∃ s', step s e = .ok s') (s : σ) {es : List ε}
    (hes : ∀ e ∈ es, C e) : ∃ s', exec (halting step) (.ok s) es = .ok s' := by
  induction es generalizing s with
  | nil => exact ⟨s, rfl⟩
  | cons e es ih =>
      obtain ⟨he, hrest⟩ := List.forall_mem_cons.mp hes
      obtain ⟨s', hs'⟩ := hstep s e he
      rw [exec_cons, halting_ok, hs']
      exact ih s' hrest

theorem throughout_halting_error {P : Except κ σ → Prop} {c : κ} (h : P (.error c))
    (es : List ε) : Throughout (halting step) P (.error c) es := by
  induction es with
  | nil => exact h
  | cons e es ih => exact ⟨h, ih⟩

/-- Events from the first on that fails in every state tell nothing about the
states a run reaches. -/
theorem throughout_halting_takeWhile {P : Except κ σ → Prop}
    (herror : ∀ c, P (.error c)) {C : ε → Bool}
    (hfails : ∀ s e, C e = false → ∃ c, step s e = .error c) (s : σ) (es : List ε) :
    Throughout (halting step) P (.ok s) es ↔
      Throughout (halting step) P (.ok s) (es.takeWhile C) := by
  induction es generalizing s with
  | nil => exact Iff.rfl
  | cons e es ih =>
      cases hC : C e with
      | true =>
          rw [List.takeWhile_cons_of_pos hC]
          refine and_congr_right fun _ => ?_
          rw [halting_ok]
          cases step s e with
          | error c =>
              exact iff_of_true (throughout_halting_error (herror c) _)
                (throughout_halting_error (herror c) _)
          | ok s' => exact ih s'
      | false =>
          obtain ⟨c, hc⟩ := hfails s e hC
          rw [List.takeWhile_cons_of_neg (by simp [hC])]
          refine and_iff_left ?_
          rw [halting_ok, hc]
          exact throughout_halting_error (herror c) es

/-- **Simulation.**  A machine that may stop does not, as long as its events are
those that an abstract machine allows. -/
theorem exec_halting_simulates {τ : Type*} {R : σ → τ → Prop} {next : τ → ε → τ}
    {C : τ → ε → Prop}
    (hsim : ∀ s t e, R s t → C t e → ∃ s', step s e = .ok s' ∧ R s' (next t e))
    {s : σ} {t : τ} (h0 : R s t) {es : List ε} (hC : Along next C t es) :
    ∃ s', exec (halting step) (.ok s) es = .ok s' ∧ R s' (exec next t es) := by
  induction es generalizing s t with
  | nil => exact ⟨s, rfl, h0⟩
  | cons e es ih =>
      obtain ⟨s', hstep, hnext⟩ := hsim s t e h0 hC.1
      rw [exec_cons, halting_ok, hstep]
      exact ih hnext hC.2

end Halting

end ValentinesDay.Verified.Run
