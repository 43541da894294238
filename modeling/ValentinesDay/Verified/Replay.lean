import Mathlib.Data.List.Basic
import Mathlib.Data.List.Perm.Subperm

/-!
# Reading a state off the list of operations

A component of a state that is only ever set, and never cleared, is determined
by *which* operations were done; a register that every operation either
overwrites or leaves alone is determined by the last one that wrote it.  Both
are facts about a fold, whatever the state is.

`mem_iff_of_filter_eq` is the reason such components do not see the order of
operations on different keys.
-/

namespace ValentinesDay.Verified.Replay

universe u v w

variable {τ : Type u} {ι : Type v} {κ : Type w} {f : τ → ι → τ}

/-- A flag raised by the operations with `Q`. -/
theorem foldl_flag (P : τ → Prop) (Q : ι → Prop)
    (h : ∀ t a, P (f t a) ↔ P t ∨ Q a) (as : List ι) (t : τ) :
    P (as.foldl f t) ↔ P t ∨ ∃ a ∈ as, Q a := by
  induction as generalizing t with
  | nil => simp
  | cons a as ih =>
      rw [List.foldl_cons, ih, h, or_assoc, List.exists_mem_cons_iff]

/-- A register written by the operations with `w a = some _`. -/
theorem foldl_register {g : τ → Option κ} {w : ι → Option κ}
    (h : ∀ t a, g (f t a) = (w a).or (g t)) (as : List ι) (t : τ) :
    g (as.foldl f t) = (as.filterMap w).getLast?.or (g t) := by
  induction as generalizing t with
  | nil => rfl
  | cons a as ih =>
      rw [List.foldl_cons, ih, h]
      cases hw : w a with
      | none => rw [List.filterMap_cons_none hw, Option.none_or]
      | some k =>
          rw [List.filterMap_cons_some hw, List.getLast?_cons, Option.some_or]
          cases (as.filterMap w).getLast? <;> rfl

/-- Lists that agree key by key have the same operations. -/
theorem mem_iff_of_filter_eq [DecidableEq κ] {key : ι → κ} {as bs : List ι}
    (h : ∀ k, as.filter (fun a => key a = k) = bs.filter (fun a => key a = k))
    (a : ι) : a ∈ as ↔ a ∈ bs := by
  have hmem : ∀ cs : List ι, a ∈ cs ↔ a ∈ cs.filter (fun b => key b = key a) := by
    intro cs
    simp [List.mem_filter]
  rw [hmem as, hmem bs, h (key a)]

end ValentinesDay.Verified.Replay
