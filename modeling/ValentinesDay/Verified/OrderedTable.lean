import Mathlib.Data.List.Lex
import Mathlib.Data.List.Sort
import Mathlib.Data.List.TakeWhile
import Mathlib.Data.Finset.Sort

/-!
# Ordered tables and scans over them

A key-value store that keeps its rows in the order of their keys is a list of
rows with strictly increasing keys.  A *scan* seeks the first row at or after a
key and reads on while the rows satisfy a condition; code that stops at the
first row that does not is right only because the order keeps the rows it wants
together.

## Main results

* `Table.ext_mem` — a table is determined by its rows as a set.
* `Table.mem_put`, `Table.mem_delete`, `Table.get_eq_some_iff` — the operations.
* `Table.scan_eq_filter` — a scan that stops early misses nothing.
* `sort_image_eq_map` — the keys of selected rows, collected in a set and read
  in order, are those of the rows in table order.
* `isPrefix_of_between` — paths below one path are together in the order.
-/

namespace ValentinesDay.Verified.OrderedTable

universe u v

variable {α : Type u} {κ : Type v}

/-! ## Lists in strict order -/

section Lists

variable {r : α → α → Prop} {xs : List α} {p : α → Bool}

/-- A condition that no later row can regain is read off the front. -/
theorem takeWhile_eq_filter (hxs : xs.Pairwise r)
    (hp : ∀ a ∈ xs, ∀ b ∈ xs, r a b → p b = true → p a = true) :
    xs.takeWhile p = xs.filter p := by
  induction xs with
  | nil => rfl
  | cons x xs ih =>
      obtain ⟨hx, hrest⟩ := List.pairwise_cons.mp hxs
      cases hpx : p x with
      | true =>
          rw [List.takeWhile_cons_of_pos hpx, List.filter_cons_of_pos hpx]
          rw [ih hrest fun a ha b hb =>
            hp a (List.mem_cons_of_mem x ha) b (List.mem_cons_of_mem x hb)]
      | false =>
          have hneg : ¬p x = true := by simp [hpx]
          rw [List.takeWhile_cons_of_neg hneg, List.filter_cons_of_neg hneg]
          refine (List.filter_eq_nil_iff.mpr ?_).symm
          intro b hb hpb
          have hpx' := hp x List.mem_cons_self b (List.mem_cons_of_mem x hb) (hx b hb) hpb
          exact hneg hpx'

theorem dropWhile_eq_filter (hxs : xs.Pairwise r)
    (hp : ∀ a ∈ xs, ∀ b ∈ xs, r a b → p b = true → p a = true) :
    xs.dropWhile p = xs.filter fun a => !p a := by
  induction xs with
  | nil => rfl
  | cons x xs ih =>
      obtain ⟨hx, hrest⟩ := List.pairwise_cons.mp hxs
      cases hpx : p x with
      | true =>
          rw [List.dropWhile_cons_of_pos hpx, List.filter_cons_of_neg (by simp [hpx])]
          exact ih hrest fun a ha b hb =>
            hp a (List.mem_cons_of_mem x ha) b (List.mem_cons_of_mem x hb)
      | false =>
          have hneg : ¬p x = true := by simp [hpx]
          rw [List.dropWhile_cons_of_neg hneg]
          refine (List.filter_eq_self.mpr ?_).symm
          intro b hb
          cases List.mem_cons.mp hb with
          | inl hbx => simp [hbx, hpx]
          | inr hb' =>
              cases hpb : p b with
              | false => rfl
              | true => exact absurd (hp x List.mem_cons_self b hb (hx b hb') hpb) hneg

end Lists

/-! ## Paths -/

theorem path_cons_le_cons_iff [LinearOrder κ] {x y : κ} {p a : List κ} :
    x :: p ≤ y :: a ↔ x < y ∨ x = y ∧ p ≤ a := by
  rw [← not_lt, ← not_lt, List.cons_lt_cons_iff, not_or, not_and, not_lt,
    le_iff_lt_or_eq]
  constructor
  · rintro ⟨hlt | heq, htail⟩
    · exact .inl hlt
    · exact .inr ⟨heq, htail heq.symm⟩
  · rintro (hlt | ⟨heq, htail⟩)
    · exact ⟨.inl hlt, fun h => absurd h (ne_of_gt hlt)⟩
    · exact ⟨.inr heq, fun _ => htail⟩

/-- In the order of paths nothing comes between a path and those below it. -/
theorem isPrefix_of_between [LinearOrder κ] {p a b : List κ} (hpa : p ≤ a) (hab : a ≤ b)
    (hpb : p <+: b) : p <+: a := by
  induction p generalizing a b with
  | nil => exact List.nil_prefix
  | cons x p ih =>
      cases b with
      | nil => exact absurd (List.prefix_nil.mp hpb) (List.cons_ne_nil x p)
      | cons y b =>
          obtain ⟨rfl, hpb'⟩ := List.cons_prefix_cons.mp hpb
          cases a with
          | nil => exact absurd hpa (not_le_of_gt (List.nil_lt_cons x p))
          | cons z a =>
              rcases path_cons_le_cons_iff.mp hpa with hxz | ⟨rfl, hpa'⟩
              · rcases path_cons_le_cons_iff.mp hab with hzx | ⟨rfl, -⟩
                · exact absurd hzx (not_lt_of_gt hxz)
                · exact absurd hxz (lt_irrefl _)
              · rcases path_cons_le_cons_iff.mp hab with hzx | ⟨-, hab'⟩
                · exact absurd hzx (lt_irrefl _)
                · exact List.cons_prefix_cons.mpr ⟨rfl, ih hpa' hab' hpb'⟩

theorem le_of_isPrefix [LinearOrder κ] {p a : List κ} (h : p <+: a) : p ≤ a := by
  induction p generalizing a with
  | nil => exact not_lt.mp (List.not_lt_nil a)
  | cons x p ih =>
      cases a with
      | nil => exact absurd (List.prefix_nil.mp h) (List.cons_ne_nil x p)
      | cons y a =>
          obtain ⟨rfl, h'⟩ := List.cons_prefix_cons.mp h
          exact path_cons_le_cons_iff.mpr (.inr ⟨rfl, ih h'⟩)

theorem append_le_append [LinearOrder κ] (p : List κ) {a b : List κ} (h : a ≤ b) :
    p ++ a ≤ p ++ b := by
  induction p with
  | nil => exact h
  | cons x p ih => exact path_cons_le_cons_iff.mpr (.inr ⟨rfl, ih⟩)

/-! ## Tables -/

section Tables

variable [LinearOrder κ] {key : α → κ}

/-- Rows in the strict order of their keys. -/
structure Table (key : α → κ) where
  rows : List α
  sorted : rows.Pairwise fun a b => key a < key b

instance [DecidableEq α] : DecidableEq (Table key)
  | ⟨xs, _⟩, ⟨ys, _⟩ => decidable_of_iff (xs = ys) (by rw [Table.mk.injEq])

namespace Table

/-- The table without rows. -/
def empty : Table key where
  rows := []
  sorted := List.Pairwise.nil

variable (t : Table key)

theorem eq_of_key_eq {a b : α} (ha : a ∈ t.rows) (hb : b ∈ t.rows)
    (h : key a = key b) : a = b := by
  have hsymm : Std.Symm fun a b : α => key a ≠ key b := ⟨fun _ _ hab => hab.symm⟩
  have hne : t.rows.Pairwise fun a b => key a ≠ key b := t.sorted.imp ne_of_lt
  by_contra hab
  exact hne.forall ha hb hab h

theorem nodup : t.rows.Nodup :=
  t.sorted.imp fun h heq => absurd (congrArg key heq) (ne_of_lt h)

/-- **Extensionality.** -/
theorem ext_mem {t t' : Table key} (h : ∀ a, a ∈ t.rows ↔ a ∈ t'.rows) : t = t' := by
  have hrows : t.rows = t'.rows := by
    have hirrefl : Std.Irrefl fun a b : α => key a < key b := ⟨fun a => lt_irrefl (key a)⟩
    have hantisymm : Std.Antisymm fun a b : α => key a < key b :=
      ⟨fun a b hab hba => absurd hab (not_lt_of_gt hba)⟩
    exact t.sorted.eq_of_mem_iff t'.sorted h
  cases t
  cases t'
  cases hrows
  rfl

/-- The rows before and after a key. -/
theorem takeWhile_lt (k : κ) :
    (t.rows.takeWhile fun b => key b < k) = t.rows.filter fun b => key b < k := by
  refine takeWhile_eq_filter t.sorted ?_
  intro a _ b _ hab hb
  exact decide_eq_true (lt_trans hab (of_decide_eq_true hb))

theorem dropWhile_le (k : κ) :
    (t.rows.dropWhile fun b => key b ≤ k) = t.rows.filter fun b => k < key b := by
  rw [dropWhile_eq_filter t.sorted]
  · refine List.filter_congr ?_
    intro a _
    rw [← decide_not]
    exact decide_eq_decide.mpr not_le
  · intro a _ b _ hab hb
    exact decide_eq_true (le_trans hab.le (of_decide_eq_true hb))

/-- Write a row in its place; a row with the same key is replaced. -/
def put (a : α) : Table key where
  rows := (t.rows.takeWhile fun b => key b < key a) ++
    a :: t.rows.dropWhile fun b => key b ≤ key a
  sorted := by
    rw [t.takeWhile_lt, t.dropWhile_le, List.pairwise_append]
    refine ⟨t.sorted.filter _, ?_, ?_⟩
    · refine List.pairwise_cons.mpr ⟨?_, t.sorted.filter _⟩
      intro b hb
      exact of_decide_eq_true (List.mem_filter.mp hb).2
    · intro b hb c hc
      have hba : key b < key a := of_decide_eq_true (List.mem_filter.mp hb).2
      cases List.mem_cons.mp hc with
      | inl hca => exact hca ▸ hba
      | inr hc' => exact lt_trans hba (of_decide_eq_true (List.mem_filter.mp hc').2)

theorem put_rows (a : α) : (t.put a).rows =
    (t.rows.takeWhile fun b => key b < key a) ++
      a :: t.rows.dropWhile fun b => key b ≤ key a := rfl

@[simp] theorem mem_put {a b : α} :
    b ∈ (t.put a).rows ↔ b = a ∨ b ∈ t.rows ∧ key b ≠ key a := by
  rw [put_rows, t.takeWhile_lt, t.dropWhile_le]
  simp only [List.mem_append, List.mem_cons, List.mem_filter, decide_eq_true_eq,
    ne_iff_lt_or_gt]
  tauto

/-- A key above all others is written at the end. -/
theorem put_rows_of_forall_lt {a : α} (h : ∀ b ∈ t.rows, key b < key a) :
    (t.put a).rows = t.rows ++ [a] := by
  have htake : (t.rows.takeWhile fun b => key b < key a) = t.rows :=
    List.takeWhile_eq_self_iff.mpr fun b hb => decide_eq_true (h b hb)
  have hdrop : (t.rows.dropWhile fun b => key b ≤ key a) = [] :=
    List.dropWhile_eq_nil_iff.mpr fun b hb => decide_eq_true (h b hb).le
  rw [put_rows, htake, hdrop]

/-- The table without the row of the key. -/
def delete (k : κ) : Table key where
  rows := t.rows.filter fun b => key b ≠ k
  sorted := t.sorted.filter _

theorem delete_rows (k : κ) : (t.delete k).rows = t.rows.filter fun b => key b ≠ k := rfl

@[simp] theorem mem_delete {k : κ} {b : α} :
    b ∈ (t.delete k).rows ↔ b ∈ t.rows ∧ key b ≠ k := by
  simp [delete_rows]

/-- The first row goes, the others stay. -/
theorem delete_rows_of_head {a : α} {rest : List α} (h : t.rows = a :: rest) :
    (t.delete (key a)).rows = rest := by
  have hlt : ∀ b ∈ rest, key a < key b := by
    have hsorted := t.sorted
    rw [h] at hsorted
    exact (List.pairwise_cons.mp hsorted).1
  rw [delete_rows, h, List.filter_cons_of_neg (by simp)]
  refine List.filter_eq_self.mpr ?_
  intro b hb
  exact decide_eq_true (ne_of_gt (hlt b hb))

/-- The row of the key. -/
def get (k : κ) : Option α := t.rows.find? fun b => key b = k

theorem get_eq_some_iff {k : κ} {a : α} :
    t.get k = some a ↔ a ∈ t.rows ∧ key a = k := by
  constructor
  · intro h
    have hkey := List.find?_some h
    exact ⟨List.mem_of_find?_eq_some h, of_decide_eq_true hkey⟩
  · rintro ⟨ha, rfl⟩
    cases hget : t.get (key a) with
    | none =>
        have hnone := List.find?_eq_none.mp hget a ha
        simp at hnone
    | some b =>
        have hb : b ∈ t.rows := List.mem_of_find?_eq_some hget
        have hkey := List.find?_some hget
        rw [t.eq_of_key_eq hb ha (of_decide_eq_true hkey)]

theorem get_put (a : α) (k : κ) :
    (t.put a).get k = if k = key a then some a else t.get k := by
  refine Option.ext fun b => ?_
  rw [get_eq_some_iff, mem_put]
  by_cases hk : k = key a
  · subst hk
    rw [if_pos rfl, Option.some.injEq]
    constructor
    · rintro ⟨rfl | ⟨-, hne⟩, hb⟩
      · rfl
      · exact absurd hb hne
    · rintro rfl
      exact ⟨.inl rfl, rfl⟩
  · rw [if_neg hk, get_eq_some_iff]
    constructor
    · rintro ⟨rfl | ⟨hb, -⟩, hbk⟩
      · exact absurd hbk.symm hk
      · exact ⟨hb, hbk⟩
    · rintro ⟨hb, rfl⟩
      exact ⟨.inr ⟨hb, hk⟩, rfl⟩

theorem get_delete (k k' : κ) :
    (t.delete k).get k' = if k' = k then none else t.get k' := by
  refine Option.ext fun b => ?_
  rw [get_eq_some_iff, mem_delete]
  by_cases hk : k' = k
  · subst hk
    rw [if_pos rfl]
    constructor
    · rintro ⟨⟨-, hne⟩, hb⟩
      exact absurd hb hne
    · intro h
      cases h
  · rw [if_neg hk, get_eq_some_iff]
    constructor
    · rintro ⟨⟨hb, -⟩, hbk⟩
      exact ⟨hb, hbk⟩
    · rintro ⟨hb, rfl⟩
      exact ⟨⟨hb, hk⟩, rfl⟩

/-- The rows from a key on. -/
def seek (k : κ) : List α := t.rows.dropWhile fun b => key b < k

theorem seek_eq_filter (k : κ) : t.seek k = t.rows.filter fun b => k ≤ key b := by
  rw [seek, dropWhile_eq_filter t.sorted]
  · refine List.filter_congr ?_
    intro a _
    rw [← decide_not]
    exact decide_eq_decide.mpr not_lt
  · intro a _ b _ hab hb
    exact decide_eq_true (lt_trans hab (of_decide_eq_true hb))

/-- Read from a key on, up to the first row outside `p`. -/
def scan (start : κ) (p : α → Bool) : List α := (t.seek start).takeWhile p

/-- A scan reads all rows with `p` from `start` on, if no other row lies between
the start and a row with `p`. -/
theorem scan_eq_filter_from {start : κ} {p : α → Bool}
    (hbetween : ∀ a ∈ t.rows, ∀ b ∈ t.rows,
      start ≤ key a → key a < key b → p b = true → p a = true) :
    t.scan start p = t.rows.filter fun a => p a && decide (start ≤ key a) := by
  rw [scan, seek_eq_filter, takeWhile_eq_filter (t.sorted.filter _), List.filter_filter]
  intro a ha b hb hab hpb
  obtain ⟨ha', hle⟩ := List.mem_filter.mp ha
  exact hbetween a ha' b (List.mem_of_mem_filter hb) (of_decide_eq_true hle) hab hpb

/-- **Scans.**  If moreover the rows with `p` begin at or after `start`, stopping
at the first row outside `p` misses none. -/
theorem scan_eq_filter {start : κ} {p : α → Bool}
    (hstart : ∀ a ∈ t.rows, p a = true → start ≤ key a)
    (hbetween : ∀ a ∈ t.rows, ∀ b ∈ t.rows,
      start ≤ key a → key a < key b → p b = true → p a = true) :
    t.scan start p = t.rows.filter p := by
  rw [t.scan_eq_filter_from hbetween]
  refine List.filter_congr ?_
  intro a ha
  cases hpa : p a with
  | false => rfl
  | true => simp [hstart a ha hpa]

/-- Seeking finds what a search through all rows finds. -/
theorem head?_seek (k : κ) : (t.seek k).head? = t.rows.find? fun b => k ≤ key b := by
  rw [seek_eq_filter, List.head?_filter]

/-- The first row from a key on, when the key is that of a row. -/
theorem head_seek {a : α} (ha : a ∈ t.rows) : (t.seek (key a)).head? = some a := by
  obtain ⟨pre, post, hsplit⟩ := List.append_of_mem ha
  have hsorted := t.sorted
  rw [hsplit] at hsorted
  have hlt : ∀ b ∈ pre, key b < key a := by
    intro b hb
    exact (List.pairwise_append.mp hsorted).2.2 b hb a List.mem_cons_self
  rw [seek, hsplit, List.dropWhile_append_of_pos fun b hb => decide_eq_true (hlt b hb),
    List.dropWhile_cons_of_neg (by simp)]
  rfl

end Table

/-! ## Rows found through a set of keys -/

/-- The keys of the selected rows, read in order. -/
theorem sort_image_eq_map [DecidableEq κ] (t : Table key) (p : α → Bool) :
    (((t.rows.filter p).map key).toFinset).sort = (t.rows.filter p).map key := by
  have hsorted : ((t.rows.filter p).map key).SortedLT := by
    refine List.Pairwise.sortedLT ?_
    exact List.pairwise_map.mpr (t.sorted.filter p)
  refine (Finset.sortedLT_sort _).eq_of_mem_iff hsorted ?_
  intro k
  simp

/-- Looking the keys of rows up again gives the rows. -/
theorem mapM_get (t : Table key) {ε : Type*} (c : κ → ε) {xs : List α}
    (hxs : ∀ a ∈ xs, a ∈ t.rows) :
    (xs.map key).mapM (fun k => ((t.get k).elim (.error (c k)) .ok : Except ε α)) =
      .ok xs := by
  induction xs with
  | nil => rfl
  | cons x xs ih =>
      obtain ⟨hx, hrest⟩ := List.forall_mem_cons.mp hxs
      have hget : t.get (key x) = some x := t.get_eq_some_iff.mpr ⟨hx, rfl⟩
      rw [List.map_cons, List.mapM_cons, hget, ih hrest]
      rfl

end Tables

end ValentinesDay.Verified.OrderedTable
