import Mathlib.Data.List.Dedup
import Mathlib.Data.List.Induction

/-!
# Operations that absorb their earlier occurrences

A queue whose items are sent again after a failure may be carried out with
repetitions.  That does no harm when an operation done once more makes what it
did before void: the result of a list of operations is then the result of the
last occurrence of each, which is what `List.dedup` keeps.

## Main results

* `Absorbing.foldl_dedup` — earlier occurrences can be left out.
* `Absorbing.words` — lists of absorbing operations, done as one operation,
  absorb as well.
* `dedup_append_filter` and its corollaries — how the last occurrences of a
  log are followed while operations are carried out, finished and issued.
-/

namespace ValentinesDay.Verified.Absorb

universe u v

variable {σ : Type u} {ι : Type v}

/-- Doing `a` again, at once or after another operation, makes the first time
void. -/
structure Absorbing (f : σ → ι → σ) : Prop where
  twice : ∀ s a, f (f s a) a = f s a
  around : ∀ s a b, f (f (f s a) b) a = f (f s b) a

section Fold

variable {f : σ → ι → σ}

/-- An occurrence is void if the operation comes once more, however late. -/
theorem Absorbing.foldl_again (h : Absorbing f) (s : σ) (a : ι) (bs : List ι) :
    (bs ++ [a]).foldl f (f s a) = (bs ++ [a]).foldl f s := by
  induction bs using List.reverseRecOn with
  | nil => exact h.twice s a
  | append_singleton bs b ih =>
      -- `a` is slipped in before `b`, where the hypothesis absorbs it
      have hslip : ∀ t, (bs ++ [b] ++ [a]).foldl f t =
          f (f ((bs ++ [a]).foldl f t) b) a := by
        intro t
        simp only [List.foldl_append, List.foldl_cons, List.foldl_nil]
        exact (h.around _ a b).symm
      rw [hslip (f s a), hslip s, ih]

theorem Absorbing.foldl_of_mem (h : Absorbing f) (s : σ) {a : ι} {bs : List ι}
    (ha : a ∈ bs) : bs.foldl f (f s a) = bs.foldl f s := by
  obtain ⟨pre, post, rfl⟩ := List.append_of_mem ha
  have hsplit : ∀ t, (pre ++ a :: post).foldl f t =
      post.foldl f ((pre ++ [a]).foldl f t) := by
    intro t
    rw [← List.foldl_append, List.append_assoc, List.singleton_append]
  rw [hsplit, hsplit, h.foldl_again s a pre]

/-- **Only last occurrences count.** -/
theorem Absorbing.foldl_dedup [DecidableEq ι] (h : Absorbing f) (as : List ι) (s : σ) :
    as.dedup.foldl f s = as.foldl f s := by
  induction as generalizing s with
  | nil => rfl
  | cons a as ih =>
      by_cases ha : a ∈ as
      · rw [List.dedup_cons_of_mem ha, ih, List.foldl_cons, h.foldl_of_mem s ha]
      · rw [List.dedup_cons_of_notMem ha, List.foldl_cons, List.foldl_cons, ih]

theorem Absorbing.foldl_congr [DecidableEq ι] (h : Absorbing f) {as bs : List ι}
    (heq : as.dedup = bs.dedup) (s : σ) : as.foldl f s = bs.foldl f s := by
  rw [← h.foldl_dedup as, heq, h.foldl_dedup bs]

theorem Absorbing.foldl_of_subset (h : Absorbing f) (s : σ) {as bs : List ι}
    (hsub : as ⊆ bs) : (as ++ bs).foldl f s = bs.foldl f s := by
  induction as generalizing s with
  | nil => rfl
  | cons a as ih =>
      obtain ⟨ha, has⟩ := List.cons_subset.mp hsub
      rw [List.cons_append, List.foldl_cons, ih (f s a) has, h.foldl_of_mem s ha]

/-- Lists of operations, each list done as one operation. -/
theorem Absorbing.words (h : Absorbing f) :
    Absorbing fun s (as : List ι) => as.foldl f s where
  twice s as := by
    rw [← List.foldl_append]
    exact h.foldl_of_subset s (List.Subset.refl as)
  around s as bs := by
    simp only [← List.foldl_append, List.append_assoc]
    refine h.foldl_of_subset s ?_
    exact List.subset_append_of_subset_right bs (List.Subset.refl as)

/-- Operations that carry something the state does not read. -/
theorem Absorbing.comap {κ : Type*} (h : Absorbing f) (g : κ → ι) :
    Absorbing fun s k => f s (g k) where
  twice s k := h.twice s (g k)
  around s k l := h.around s (g k) (g l)

end Fold

/-! ## Last occurrences of a log -/

section Dedup

variable [DecidableEq ι]

/-- Of the first list stay the operations that do not come again. -/
theorem dedup_append_filter (as bs : List ι) :
    (as ++ bs).dedup = (as.dedup.filter fun a => a ∉ bs) ++ bs.dedup := by
  induction as with
  | nil => rfl
  | cons a as ih =>
      rw [List.cons_append]
      by_cases has : a ∈ as
      · rw [List.dedup_cons_of_mem (List.mem_append_left bs has),
          List.dedup_cons_of_mem has, ih]
      · by_cases hbs : a ∈ bs
        · rw [List.dedup_cons_of_mem (List.mem_append_right as hbs),
            List.dedup_cons_of_notMem has, List.filter_cons_of_neg (by simpa using hbs), ih]
        · have hnot : a ∉ as ++ bs := by simp [has, hbs]
          rw [List.dedup_cons_of_notMem hnot, List.dedup_cons_of_notMem has,
            List.filter_cons_of_pos (by simpa using hbs), List.cons_append, ih]

/-- An operation issued after both logs. -/
theorem dedup_append_congr {as as' bs bs' : List ι} (ha : as.dedup = as'.dedup)
    (hb : bs.dedup = bs'.dedup) : (as ++ bs).dedup = (as' ++ bs').dedup := by
  have hmem : ∀ a, a ∈ bs ↔ a ∈ bs' := by
    intro a
    rw [← List.mem_dedup, hb, List.mem_dedup]
  simp only [dedup_append_filter, ha, hb, hmem]

/-- What comes again later can be taken out of the middle. -/
theorem dedup_append_of_subset (as : List ι) {bs cs : List ι} (hsub : bs ⊆ cs) :
    (as ++ (bs ++ cs)).dedup = (as ++ cs).dedup :=
  dedup_append_congr rfl (List.Subset.dedup_append_right hsub)

theorem dedup_filter (p : ι → Bool) (as : List ι) :
    (as.filter p).dedup = as.dedup.filter p := by
  induction as with
  | nil => rfl
  | cons a as ih =>
      cases hp : p a with
      | true =>
          by_cases ha : a ∈ as
          · rw [List.filter_cons_of_pos hp, List.dedup_cons_of_mem ha,
              List.dedup_cons_of_mem (List.mem_filter.mpr ⟨ha, hp⟩), ih]
          · have hnot : a ∉ as.filter p := fun h => ha (List.mem_of_mem_filter h)
            rw [List.filter_cons_of_pos hp, List.dedup_cons_of_notMem ha,
              List.dedup_cons_of_notMem hnot, List.filter_cons_of_pos hp, ih]
      | false =>
          have hneg : ¬p a = true := by simp [hp]
          rw [List.filter_cons_of_neg hneg, ih]
          by_cases ha : a ∈ as
          · rw [List.dedup_cons_of_mem ha]
          · rw [List.dedup_cons_of_notMem ha, List.filter_cons_of_neg hneg]

end Dedup

end ValentinesDay.Verified.Absorb
