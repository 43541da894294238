import Mathlib.Data.List.Perm.Basic
import Mathlib.Order.Basic

/-!
# Pending work

A queue whose items may be served in any order is a list from which the item
at some index is taken out.  What matters of such a step is that the item and
the rest are together the old queue, whatever the index.
-/

namespace ValentinesDay.Verified.Pending

universe u

variable {α : Type u}

/-- Serving the item at index `i` leaves exactly the other items. -/
theorem perm_cons_eraseIdx {xs : List α} {i : Nat} {a : α}
    (h : xs[i]? = some a) : xs.Perm (a :: xs.eraseIdx i) := by
  induction xs generalizing i with
  | nil => simp at h
  | cons x xs ih =>
      cases i with
      | zero =>
          simp only [List.getElem?_cons_zero, Option.some.injEq] at h
          subst h
          exact List.Perm.refl _
      | succ i =>
          simp only [List.getElem?_cons_succ] at h
          exact ((ih h).cons x).trans (List.Perm.swap a x _)

theorem count_eraseIdx [DecidableEq α] {xs : List α} {i : Nat} {a : α}
    (h : xs[i]? = some a) (b : α) :
    xs.count b = (xs.eraseIdx i).count b + if a = b then 1 else 0 := by
  rw [(perm_cons_eraseIdx h).count_eq, List.count_cons]
  simp only [beq_iff_eq]

/-! ## Items of one kind in a common queue -/

section Filter

variable {p : α → Bool} {xs : List α} {i : Nat} {a : α}

/-- Serving an item of another kind. -/
theorem filter_eraseIdx_of_neg (h : xs[i]? = some a) (ha : p a = false) :
    (xs.eraseIdx i).filter p = xs.filter p := by
  induction xs generalizing i with
  | nil => simp at h
  | cons x xs ih =>
      cases i with
      | zero =>
          simp only [List.getElem?_cons_zero, Option.some.injEq] at h
          rw [List.eraseIdx_cons_zero, List.filter_cons_of_neg (by rw [h, ha]; decide)]
      | succ i =>
          simp only [List.getElem?_cons_succ] at h
          simp only [List.eraseIdx_cons_succ, List.filter_cons, ih h]

/-- Serving an item of the kind. -/
theorem exists_filter_eraseIdx (h : xs[i]? = some a) (ha : p a = true) :
    ∃ j, (xs.filter p)[j]? = some a ∧
      (xs.eraseIdx i).filter p = (xs.filter p).eraseIdx j := by
  induction xs generalizing i with
  | nil => simp at h
  | cons x xs ih =>
      cases i with
      | zero =>
          simp only [List.getElem?_cons_zero, Option.some.injEq] at h
          refine ⟨0, ?_, ?_⟩
          · rw [List.filter_cons_of_pos (by rw [h, ha]), List.getElem?_cons_zero, h]
          · rw [List.filter_cons_of_pos (by rw [h, ha]), List.eraseIdx_cons_zero,
              List.eraseIdx_cons_zero]
      | succ i =>
          simp only [List.getElem?_cons_succ] at h
          obtain ⟨j, hj, herase⟩ := ih h
          rw [List.eraseIdx_cons_succ]
          cases hx : p x with
          | true =>
              refine ⟨j + 1, ?_, ?_⟩
              · rw [List.filter_cons_of_pos hx, List.getElem?_cons_succ, hj]
              · rw [List.filter_cons_of_pos hx, List.filter_cons_of_pos hx,
                  List.eraseIdx_cons_succ, herase]
          | false =>
              have hneg : ¬p x = true := by rw [hx]; decide
              refine ⟨j, ?_, ?_⟩
              · rw [List.filter_cons_of_neg hneg, hj]
              · rw [List.filter_cons_of_neg hneg, List.filter_cons_of_neg hneg, herase]

variable {κ : Type*} [Preorder κ] {key : α → κ}

/-- In a queue in strict order the earliest item is the first. -/
theorem eq_zero_of_earliest (hsorted : xs.Pairwise fun b c => key b < key c)
    (h : xs[i]? = some a) (hfirst : ∀ b ∈ xs, key a ≤ key b) : i = 0 := by
  cases i with
  | zero => rfl
  | succ i =>
      cases xs with
      | nil => simp at h
      | cons x xs =>
          simp only [List.getElem?_cons_succ] at h
          have hlt : key x < key a :=
            (List.pairwise_cons.mp hsorted).1 a (List.mem_of_getElem? h)
          exact absurd (hfirst x List.mem_cons_self) (not_le_of_gt hlt)

/-- Serving the earliest item of a kind whose items are in strict order. -/
theorem filter_eq_cons_of_earliest
    (hsorted : (xs.filter p).Pairwise fun b c => key b < key c)
    (h : xs[i]? = some a) (ha : p a = true)
    (hfirst : ∀ b ∈ xs, key a ≤ key b) :
    xs.filter p = a :: (xs.eraseIdx i).filter p := by
  obtain ⟨j, hj, herase⟩ := exists_filter_eraseIdx h ha
  have hzero : j = 0 := by
    refine eq_zero_of_earliest hsorted hj ?_
    intro b hb
    exact hfirst b (List.mem_of_mem_filter hb)
  subst hzero
  rw [herase]
  cases hown : xs.filter p with
  | nil => simp [hown] at hj
  | cons b own =>
      simp only [hown, List.getElem?_cons_zero, Option.some.injEq] at hj
      rw [hj, List.eraseIdx_cons_zero]

end Filter

end ValentinesDay.Verified.Pending
