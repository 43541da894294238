import Mathlib.Order.Nat
import ValentinesDay.Verified.Absorb

/-!
# The changes a log makes

A log of operations is folded over a state.  Every operation has the time at
which it was done, and not every operation changes the state; readers that are
told when the state last changed can tell what they have seen from what they
have not.

## Main results

* `time_le_version` and `version_mono` — the time of the last change bounds
  those of all changes, and only grows.
* `foldl_of_changes` — a reader of a prefix who is to do again all changes that
  it missed ends where the whole log would.
* `Copy.foldl_of_misses` — the same for a copy that knows its version only, and
  `Copy.catchUp`, how a copy is kept up by repeating a change.
-/

namespace ValentinesDay.Verified.Ledger

open ValentinesDay.Verified.Absorb

universe u v

/-- An operation, with the time at which it was done. -/
structure Stamped (ι : Type v) where
  op : ι
  time : Nat

variable {σ : Type u} {ι : Type v} (f : σ → ι → σ) (s : σ)

/-- The state that a log ends in. -/
def after (log : List (Stamped ι)) : σ := log.foldl (fun s e => f s e.op) s

@[simp] theorem after_concat (log : List (Stamped ι)) (e : Stamped ι) :
    after f s (log ++ [e]) = f (after f s log) e.op := List.foldl_concat ..

theorem after_eq_foldl (log : List (Stamped ι)) :
    after f s log = (log.map (·.op)).foldl f s := List.foldl_map.symm

/-- Operation `i` of the log is `e`, and it changes the state. -/
def Changes (log : List (Stamped ι)) (i : Nat) (e : Stamped ι) : Prop :=
  log[i]? = some e ∧ f (after f s (log.take i)) e.op ≠ after f s (log.take i)

theorem Changes.lt_length {f : σ → ι → σ} {s : σ} {log : List (Stamped ι)} {i : Nat}
    {e : Stamped ι} (h : Changes f s log i e) : i < log.length :=
  (List.getElem?_eq_some_iff.mp h.1).1

/-- A prefix of the log has the same changes, as far as it goes. -/
theorem changes_take {log : List (Stamped ι)} {n i : Nat} {e : Stamped ι} :
    Changes f s (log.take n) i e ↔ i < n ∧ Changes f s log i e := by
  unfold Changes
  rw [List.getElem?_take, List.take_take]
  by_cases hi : i < n
  · rw [if_pos hi, Nat.min_eq_left hi.le]
    exact (and_iff_right hi).symm
  · rw [if_neg hi]
    exact iff_of_false (fun h => by cases h.1) fun h => hi h.1

theorem changes_concat {log : List (Stamped ι)} {b : Stamped ι} {i : Nat} {e : Stamped ι} :
    Changes f s (log ++ [b]) i e ↔ Changes f s log i e ∨
      i = log.length ∧ e = b ∧ f (after f s log) b.op ≠ after f s log := by
  unfold Changes
  rcases Nat.lt_trichotomy i log.length with hlt | rfl | hgt
  · rw [List.getElem?_append_left hlt, List.take_append_of_le_length hlt.le]
    simp [hlt.ne]
  · rw [List.getElem?_concat_length, List.take_left, List.getElem?_eq_none le_rfl]
    constructor
    · rintro ⟨hb, hne⟩
      cases hb
      exact .inr ⟨rfl, rfl, hne⟩
    · rintro (⟨hnone, -⟩ | ⟨-, rfl, hne⟩)
      · cases hnone
      · exact ⟨rfl, hne⟩
  · have hnone : ∀ es : List (Stamped ι), es.length ≤ i → es[i]? = none :=
      fun es h => List.getElem?_eq_none h
    rw [hnone _ (by rw [List.length_append]; exact hgt), hnone _ hgt.le]
    simp [hgt.ne']

/-- Without changes since, the state is what it was. -/
theorem after_of_no_changes {log : List (Stamped ι)} {t : Nat}
    (h : ∀ i e, t ≤ i → ¬Changes f s log i e) :
    after f s log = after f s (log.take t) := by
  induction log using List.reverseRecOn with
  | nil => rw [List.take_nil]
  | append_singleton log b ih =>
      by_cases ht : log.length < t
      · rw [List.take_of_length_le (by rw [List.length_append]; exact ht)]
      · have hstay : f (after f s log) b.op = after f s log := by
          by_contra hne
          exact h log.length b (not_lt.mp ht) ((changes_concat f s).mpr (.inr ⟨rfl, rfl, hne⟩))
        rw [after_concat, hstay, List.take_append_of_le_length (not_lt.mp ht)]
        exact ih fun i e hi hchange => h i e hi ((changes_concat f s).mpr (.inl hchange))

/-- **Missed changes.**  When all changes since are to be done again, it does not
matter that they were missed. -/
theorem foldl_of_changes {f : σ → ι → σ} (hf : Absorbing f) (s : σ)
    {log : List (Stamped ι)} {bs : List ι} {t : Nat}
    (h : ∀ i e, t ≤ i → Changes f s log i e → e.op ∈ bs) :
    bs.foldl f (after f s log) = bs.foldl f (after f s (log.take t)) := by
  induction log using List.reverseRecOn with
  | nil => rw [List.take_nil]
  | append_singleton log b ih =>
      by_cases ht : log.length < t
      · rw [List.take_of_length_le (by rw [List.length_append]; exact ht)]
      · have hrest := ih fun i e hi hchange =>
          h i e hi ((changes_concat f s).mpr (.inl hchange))
        rw [List.take_append_of_le_length (not_lt.mp ht), ← hrest, after_concat]
        by_cases hstay : f (after f s log) b.op = after f s log
        · rw [hstay]
        · exact hf.foldl_of_mem _ (h log.length b (not_lt.mp ht)
            ((changes_concat f s).mpr (.inr ⟨rfl, rfl, hstay⟩)))

/-! ## Times -/

/-- The times of a log rise, from later than `start` to `now` at most. -/
structure Rising (start now : Nat) (log : List (Stamped ι)) : Prop where
  pairwise : log.Pairwise fun e e' => e.time < e'.time
  start_lt : ∀ e ∈ log, start < e.time
  le_now : ∀ e ∈ log, e.time ≤ now
  start_le : start ≤ now

section Rising

variable {start now : Nat} {log : List (Stamped ι)}

theorem rising_nil (h : start ≤ now) : Rising start now ([] : List (Stamped ι)) where
  pairwise := .nil
  start_lt := by simp
  le_now := by simp
  start_le := h

theorem Rising.concat (h : Rising start now log) {e : Stamped ι} (he : now < e.time) :
    Rising start e.time (log ++ [e]) where
  pairwise := List.pairwise_append.mpr ⟨h.pairwise, List.pairwise_singleton _ _,
    fun e' he' e'' he'' => by
      rw [List.mem_singleton.mp he'']
      exact (h.le_now e' he').trans_lt he⟩
  start_lt e' he' := by
    rcases List.mem_append.mp he' with hold | hnew
    · exact h.start_lt e' hold
    · rw [List.mem_singleton.mp hnew]
      exact h.start_le.trans_lt he
  le_now e' he' := by
    rcases List.mem_append.mp he' with hold | hnew
    · exact (h.le_now e' hold).trans he.le
    · rw [List.mem_singleton.mp hnew]
  start_le := h.start_le.trans he.le

theorem Rising.take (h : Rising start now log) (n : Nat) : Rising start now (log.take n) where
  pairwise := h.pairwise.sublist (List.take_sublist n log)
  start_lt e he := h.start_lt e (List.mem_of_mem_take he)
  le_now e he := h.le_now e (List.mem_of_mem_take he)
  start_le := h.start_le

theorem Rising.time_lt (h : Rising start now log) {i j : Nat} {e e' : Stamped ι}
    (he : log[i]? = some e) (he' : log[j]? = some e') (hij : i < j) : e.time < e'.time := by
  obtain ⟨hi, rfl⟩ := List.getElem?_eq_some_iff.mp he
  obtain ⟨hj, rfl⟩ := List.getElem?_eq_some_iff.mp he'
  exact List.pairwise_iff_getElem.mp h.pairwise i j hi hj hij

end Rising

/-! ## What a copy misses

A copy of the state comes with a version, which is the time of some change of
it, or one before the log. -/

/-- Operation `i` changes the state later than version `v`. -/
def Misses (log : List (Stamped ι)) (v i : Nat) (e : Stamped ι) : Prop :=
  Changes f s log i e ∧ v < e.time

theorem Misses.of_le {f : σ → ι → σ} {s : σ} {log : List (Stamped ι)} {v v' i : Nat}
    {e : Stamped ι} (hv : v ≤ v') (h : Misses f s log v' i e) : Misses f s log v i e :=
  ⟨h.1, hv.trans_lt h.2⟩

theorem Misses.of_concat {f : σ → ι → σ} {s : σ} {log : List (Stamped ι)} {b : Stamped ι}
    {v i : Nat} {e : Stamped ι} (h : Misses f s (log ++ [b]) v i e) :
    Misses f s log v i e ∨ i = log.length ∧ e = b := by
  rcases (changes_concat f s).mp h.1 with hold | ⟨hi, he, -⟩
  · exact .inl ⟨hold, h.2⟩
  · exact .inr ⟨hi, he⟩

section Version

variable [DecidableEq σ] (start : Nat)

/-- The state and the time of its last change, after one more operation. -/
def follow (p : σ × Nat) (e : Stamped ι) : σ × Nat :=
  if f p.1 e.op = p.1 then p else (f p.1 e.op, e.time)

/-- The time of the last change; `start` is that of the state before the log. -/
def version (log : List (Stamped ι)) : Nat := (log.foldl (follow f) (s, start)).2

theorem foldl_follow (log : List (Stamped ι)) :
    log.foldl (follow f) (s, start) = (after f s log, version f s start log) := by
  induction log using List.reverseRecOn with
  | nil => rfl
  | append_singleton log e ih =>
      unfold version
      rw [List.foldl_concat, ih, after_concat, follow]
      split
      · next hstay => rw [hstay]
      · rfl

theorem version_concat (log : List (Stamped ι)) (e : Stamped ι) :
    version f s start (log ++ [e]) =
      if f (after f s log) e.op = after f s log then version f s start log else e.time := by
  rw [version, List.foldl_concat, foldl_follow, follow]
  split <;> rfl

variable {f : σ → ι → σ} {s : σ} {start now : Nat} {log : List (Stamped ι)}

theorem Rising.version_le (h : Rising start now log) : version f s start log ≤ now := by
  induction log using List.reverseRecOn with
  | nil => exact h.start_le
  | append_singleton log e ih =>
      rw [version_concat]
      split
      · refine ih ?_
        have hprefix := h.take log.length
        rwa [List.take_left] at hprefix
      · exact h.le_now e (List.mem_append_right log List.mem_cons_self)

/-- What is done later has a later time than the version. -/
theorem Rising.version_lt (h : Rising start now log) {n i : Nat} {e : Stamped ι}
    (hi : n ≤ i) (he : log[i]? = some e) : version f s start (log.take n) < e.time := by
  induction n with
  | zero =>
      rw [List.take_zero]
      exact h.start_lt e (List.mem_of_getElem? he)
  | succ n ih =>
      have hlt : n < log.length :=
        (Nat.lt_of_succ_le hi).trans (List.getElem?_eq_some_iff.mp he).1
      rw [List.take_add_one, List.getElem?_eq_getElem hlt]
      show version f s start (log.take n ++ [log[n]]) < e.time
      rw [version_concat]
      split
      · exact ih (Nat.le_of_succ_le hi)
      · exact h.time_lt (List.getElem?_eq_getElem hlt) he hi

/-- The version is that of the last change. -/
theorem Rising.time_le_version (h : Rising start now log) {i : Nat} {e : Stamped ι}
    (hchange : Changes f s log i e) : e.time ≤ version f s start log := by
  induction log using List.reverseRecOn with
  | nil => cases hchange.1
  | append_singleton log b ih =>
      have hprefix : Rising start now log := by
        have htake := h.take log.length
        rwa [List.take_left] at htake
      rw [version_concat]
      rcases (changes_concat f s).mp hchange with hold | ⟨rfl, rfl, hne⟩
      · split
        · exact ih hprefix hold
        · refine (h.time_lt ?_ List.getElem?_concat_length hold.lt_length).le
          rw [List.getElem?_append_left hold.lt_length]
          exact hold.1
      · rw [if_neg hne]

theorem Rising.version_mono (h : Rising start now log) {m n : Nat} (hmn : m ≤ n) :
    version f s start (log.take m) ≤ version f s start (log.take n) := by
  induction n, hmn using Nat.le_induction with
  | base => exact le_rfl
  | succ n hmn ih =>
      rw [List.take_add_one]
      cases hn : log[n]? with
      | none => rwa [Option.toList_none, List.append_nil]
      | some e =>
          rw [Option.toList_some, version_concat]
          split
          · exact ih
          · exact (h.version_lt hmn hn).le

/-! ### Copies of the state -/

variable (f s start now) in
/-- The state as it was at some time, with a version from the last change before
to the present; what came later has later times. -/
def Copy (log : List (Stamped ι)) (v : Nat) (d : σ) : Prop :=
  ∃ t ≤ log.length, d = after f s (log.take t) ∧ version f s start (log.take t) ≤ v ∧
    v ≤ now ∧ ∀ i e, t ≤ i → log[i]? = some e → v < e.time

/-- The version after `n` operations misses none of these. -/
theorem Misses.le_of_version (h : Rising start now log) {n i : Nat} {e : Stamped ι}
    (hmisses : Misses f s log (version f s start (log.take n)) i e) : n ≤ i := by
  by_contra hlt
  have hchange : Changes f s (log.take n) i e :=
    (changes_take f s).mpr ⟨not_le.mp hlt, hmisses.1⟩
  exact absurd hmisses.2 (not_lt.mpr ((h.take n).time_le_version hchange))

/-- The present state, with a version that is not too old. -/
theorem copy_present {v : Nat} (hle : version f s start log ≤ v) (hv : v ≤ now) :
    Copy f s start now log v (after f s log) := by
  refine ⟨log.length, le_rfl, by rw [List.take_length], by rwa [List.take_length], hv, ?_⟩
  intro i e hi he
  exact absurd (List.getElem?_eq_some_iff.mp he).1 (not_lt.mpr hi)

theorem Copy.concat {v : Nat} {d : σ} (h : Copy f s start now log v d) {b : Stamped ι}
    (hb : now < b.time) : Copy f s start b.time (log ++ [b]) v d := by
  obtain ⟨t, ht, hd, hversion, hv, hlater⟩ := h
  refine ⟨t, ht.trans (by simp), ?_, ?_, hv.trans hb.le, ?_⟩
  · rwa [List.take_append_of_le_length ht]
  · rwa [List.take_append_of_le_length ht]
  · intro i e hi he
    rcases lt_or_ge i log.length with hlt | hge
    · rw [List.getElem?_append_left hlt] at he
      exact hlater i e hi he
    · rw [List.getElem?_append_right hge, List.getElem?_singleton] at he
      split at he
      · cases he
        exact hv.trans_lt hb
      · cases he

/-- **Copies under what they miss.** -/
theorem Copy.foldl_of_misses (hf : Absorbing f) {v : Nat} {d : σ}
    (h : Copy f s start now log v d) {bs : List ι}
    (hbs : ∀ i e, Misses f s log v i e → e.op ∈ bs) :
    bs.foldl f (after f s log) = bs.foldl f d := by
  obtain ⟨t, -, rfl, -, -, hlater⟩ := h
  refine foldl_of_changes hf s ?_
  intro i e hi hchange
  exact hbs i e ⟨hchange, hlater i e hi hchange.1⟩

/-- A copy that misses nothing before operation `p` is kept up by doing `p`. -/
theorem Copy.catchUp (hrising : Rising start now log) {v p : Nat} {d : σ} {e : Stamped ι}
    (h : Copy f s start now log v d) (hp : ∀ i e, Misses f s log v i e → p ≤ i)
    (he : log[p]? = some e) (hv : v < version f s start (log.take (p + 1))) :
    Copy f s start now log (version f s start (log.take (p + 1))) (f d e.op) := by
  obtain ⟨t, -, rfl, hlow, -, hlater⟩ := h
  have htp : t ≤ p := by
    by_contra hlt
    have hmono : version f s start (log.take (p + 1)) ≤ version f s start (log.take t) :=
      hrising.version_mono (not_le.mp hlt)
    exact absurd (hv.trans_le hmono) (not_lt.mpr hlow)
  have hquiet : after f s (log.take p) = after f s (log.take t) := by
    have hnone : ∀ i b, t ≤ i → ¬Changes f s (log.take p) i b := by
      intro i b hi hchange
      obtain ⟨hlt, hchange⟩ := (changes_take f s).mp hchange
      have hle := hp i b ⟨hchange, hlater i b hi hchange.1⟩
      omega
    have hfold := after_of_no_changes f s hnone
    rwa [List.take_take, Nat.min_eq_left htp] at hfold
  refine ⟨p + 1, (List.getElem?_eq_some_iff.mp he).1, ?_, le_rfl,
    (hrising.take _).version_le, fun i b hi hb => hrising.version_lt hi hb⟩
  rw [List.take_add_one, he, Option.toList_some, after_concat, hquiet]

end Version

end ValentinesDay.Verified.Ledger
