import Mathlib.Data.Finset.Card
import Mathlib.Order.Defs.LinearOrder

/-!
# The first members of an ordered population

A window of size `n` has the first `n` members of a population, or all of them
if there are no more.  Whoever keeps a window without the population has to know
when what is left outside could come in.

## Main results

* `Window.unique` — there is one window.
* `Window.of_erase` — it is reached by letting the last member go, again and
  again.
* `Window.mono` — members outside do not matter as long as `n` of those that
  are known come before them.
-/

namespace ValentinesDay.Verified.FirstMembers

universe u v

variable {ι : Type u} {κ : Type v} [LinearOrder κ]

/-- `w` are the first `n` members of `s` by their place `f`. -/
structure Window (f : ι → κ) (n : Nat) (s w : Finset ι) : Prop where
  subset : w ⊆ s
  card_le : w.card ≤ n
  outside : ∀ a ∈ s, a ∉ w → w.card = n ∧ ∀ b ∈ w, f b < f a

variable {f : ι → κ} {n : Nat} {s t w w' : Finset ι}

theorem Window.of_card_le (h : s.card ≤ n) : Window f n s s where
  subset := Finset.Subset.refl s
  card_le := h
  outside _ ha hout := absurd ha hout

/-- A window that is not full has everything. -/
theorem Window.eq_of_card_lt (h : Window f n s w) (hcard : w.card < n) : w = s := by
  refine h.subset.antisymm ?_
  intro a ha
  by_contra hout
  exact absurd (h.outside a ha hout).1 (ne_of_lt hcard)

/-- **One window.** -/
theorem Window.unique (h : Window f n s w) (h' : Window f n s w') : w = w' := by
  have hsub : ∀ {v v' : Finset ι}, Window f n s v → Window f n s v' → v ⊆ v' := by
    intro v v' hv hv' a ha
    by_contra hout
    obtain ⟨hfull, hafter⟩ := hv'.outside a (hv.subset ha) hout
    -- some member of `v'` is not in `v`, and comes before `a` and after it
    have hex : ∃ b ∈ v', b ∉ v := by
      by_contra hall
      have hle : v' ⊆ v := fun b hb => by
        by_contra hb'
        exact hall ⟨b, hb, hb'⟩
      have heq : v' = v := Finset.eq_of_subset_of_card_le hle (hfull ▸ hv.card_le)
      exact hout (heq ▸ ha)
    obtain ⟨b, hb, hb'⟩ := hex
    have hba := hafter b hb
    have hab := (hv.outside b (hv'.subset hb) hb').2 a ha
    exact lt_asymm hba hab
  exact (hsub h h').antisymm (hsub h' h)

variable [DecidableEq ι]

/-- Of a list in order the window is the front. -/
theorem Window.take {xs : List ι} (hxs : xs.Pairwise fun a b => f a < f b) :
    Window f n xs.toFinset (xs.take n).toFinset where
  subset _ ha := List.mem_toFinset.mpr (List.mem_of_mem_take (List.mem_toFinset.mp ha))
  card_le := (List.toFinset_card_le _).trans (List.length_take_le n xs)
  outside a ha hout := by
    have hsplit := List.take_append_drop n xs
    have hsorted := hxs
    rw [← hsplit, List.pairwise_append] at hsorted
    have hdrop : a ∈ xs.drop n := by
      have hmem := List.mem_toFinset.mp ha
      rw [← hsplit] at hmem
      refine (List.mem_append.mp hmem).resolve_left ?_
      exact fun htake => hout (List.mem_toFinset.mpr htake)
    refine ⟨?_, fun b hb => hsorted.2.2 b (List.mem_toFinset.mp hb) a hdrop⟩
    have hnodup : (xs.take n).Nodup :=
      hsorted.1.imp fun h heq => absurd (congrArg f heq) (ne_of_lt h)
    have hlength : n ≤ xs.length := by
      by_contra hlt
      rw [List.drop_eq_nil_of_le (not_le.mp hlt).le] at hdrop
      cases hdrop
    rw [List.toFinset_card_of_nodup hnodup, List.length_take, min_eq_left hlength]

/-- The last member of too many can go. -/
theorem Window.of_erase {m : ι} (hm : m ∈ s) (hmany : n < s.card)
    (hlast : ∀ b ∈ s, b ≠ m → f b < f m) (h : Window f n (s.erase m) w) :
    Window f n s w where
  subset := h.subset.trans (Finset.erase_subset m s)
  card_le := h.card_le
  outside a ha hout := by
    by_cases ham : a = m
    · subst ham
      refine ⟨?_, ?_⟩
      · by_contra hne
        have hall := h.eq_of_card_lt (lt_of_le_of_ne h.card_le hne)
        have hcard := Finset.card_erase_of_mem hm
        rw [← hall] at hcard
        have hle := h.card_le
        omega
      · intro b hb
        have hbs := Finset.mem_erase.mp (h.subset hb)
        exact hlast b hbs.2 hbs.1
    · exact h.outside a (Finset.mem_erase.mpr ⟨ham, ha⟩) hout

/-- When `n` members come before a place, so does the whole window. -/
theorem Window.lt_of_many (h : Window f n s w) {p : κ}
    (hmany : n ≤ (s.filter fun a => f a < p).card) :
    w.card = n ∧ ∀ b ∈ w, f b < p := by
  have hbefore : ∀ b ∈ w, f b < p := by
    intro b hb
    by_contra hle
    -- all members before `p` would be in the window, and `b` besides
    have hsub : insert b (s.filter fun a => f a < p) ⊆ w := by
      intro a ha
      rcases Finset.mem_insert.mp ha with rfl | ha
      · exact hb
      · obtain ⟨has, hap⟩ := Finset.mem_filter.mp ha
        by_contra hout
        have hlt := (h.outside a has hout).2 b hb
        exact hle (hlt.trans hap)
    have hnot : b ∉ s.filter fun a => f a < p := fun hb' => hle (Finset.mem_filter.mp hb').2
    have hcard := Finset.card_le_card hsub
    rw [Finset.card_insert_of_notMem hnot] at hcard
    have hle' := h.card_le
    omega
  refine ⟨?_, hbefore⟩
  by_contra hne
  have hlt : w.card < n := lt_of_le_of_ne h.card_le hne
  have hall := h.eq_of_card_lt hlt
  have hfilter := Finset.card_filter_le s fun a => f a < p
  rw [hall] at hlt
  omega

/-- **More population.**  What comes after `n` known members stays outside. -/
theorem Window.mono (h : Window f n s w) (hst : s ⊆ t)
    (hmany : ∀ a ∈ t, a ∉ s → n ≤ (s.filter fun b => f b < f a).card) :
    Window f n t w where
  subset := h.subset.trans hst
  card_le := h.card_le
  outside a ha hout := by
    by_cases has : a ∈ s
    · exact h.outside a has hout
    · exact h.lt_of_many (hmany a ha has)

end ValentinesDay.Verified.FirstMembers
