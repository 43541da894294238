import ValentinesDay.Verified.Absorb

/-!
# An outbox over a connection that breaks

A client keeps the operations it has issued until they are answered, and sends
them in order.  The server carries them out in order and answers; when the
connection breaks, answers are lost and everything unanswered is sent again.
The server may refuse an operation; it then does nothing more on this connection,
and the client drops the operation when it learns of it.  If the server had
carried out that very operation before, the books no longer balance: the outbox
is `unsteady` from then on.

`Outbox` is such a state with what holds in it, so every operation below is a
step of the protocol that keeps it.

## Main results

* `Outbox.foldl_pending` — whatever was lost and repeated, as long as the outbox
  is steady: once the unanswered operations are carried out, the server has done
  each acknowledged and each unanswered operation once, in the order of issue.
-/

namespace ValentinesDay.Verified.Resend

open ValentinesDay.Verified.Absorb

universe u v

variable {σ : Type u} {ι : Type v} [DecidableEq ι]

/-- `inFlight` is how many of the pending operations, from the first on, the
server has carried out on the present connection. -/
structure Outbox (ι : Type v) [DecidableEq ι] where
  pending : List ι
  log : List ι
  acked : List ι
  inFlight : Nat
  refused : Bool
  unsteady : Bool
  inFlight_le : inFlight ≤ pending.length
  /-- The log ends with what is in flight. -/
  carriedOut : ∃ before, log = before ++ pending.take inFlight
  /-- Something is pending when it is refused. -/
  asked : refused = true → inFlight < pending.length
  known : acked ⊆ log
  same : unsteady = false → (log ++ pending).dedup = (acked ++ pending).dedup

namespace Outbox

/-- Nothing issued yet. -/
def empty : Outbox ι where
  pending := []
  log := []
  acked := []
  inFlight := 0
  refused := false
  unsteady := false
  inFlight_le := Nat.le_refl 0
  carriedOut := ⟨[], rfl⟩
  asked h := by cases h
  known := List.Subset.refl []
  same _ := rfl

variable (o : Outbox ι)

/-- The client issues an operation. -/
def issue (a : ι) : Outbox ι where
  pending := o.pending ++ [a]
  log := o.log
  acked := o.acked
  inFlight := o.inFlight
  refused := o.refused
  unsteady := o.unsteady
  inFlight_le := by
    rw [List.length_append]
    exact Nat.le_add_right_of_le o.inFlight_le
  carriedOut := by
    rw [List.take_append_of_le_length o.inFlight_le]
    exact o.carriedOut
  asked h := by
    rw [List.length_append]
    exact Nat.lt_add_right 1 (o.asked h)
  known := o.known
  same hsteady := by
    rw [← List.append_assoc, ← List.append_assoc]
    exact dedup_append_congr (o.same hsteady) rfl

/-- The server carries out the next operation. -/
def carryOut {a : ι} (hnext : o.pending[o.inFlight]? = some a) (_h : o.refused = false) :
    Outbox ι where
  pending := o.pending
  log := o.log ++ [a]
  acked := o.acked
  inFlight := o.inFlight + 1
  refused := false
  unsteady := o.unsteady
  inFlight_le := (List.getElem?_eq_some_iff.mp hnext).1
  carriedOut := by
    obtain ⟨before, hbefore⟩ := o.carriedOut
    refine ⟨before, ?_⟩
    rw [hbefore, List.append_assoc, List.take_add_one, hnext]
    rfl
  asked h := by cases h
  known := List.subset_append_of_subset_left [a] o.known
  same hsteady := by
    have hmem : [a] ⊆ o.pending :=
      List.cons_subset.mpr ⟨List.mem_of_getElem? hnext, List.nil_subset _⟩
    rw [List.append_assoc, dedup_append_of_subset o.log hmem, o.same hsteady]

/-- The server refuses the next operation. -/
def refuse {a : ι} (hnext : o.pending[o.inFlight]? = some a) : Outbox ι :=
  { o with
    refused := true
    asked := fun _ => (List.getElem?_eq_some_iff.mp hnext).1 }

/-- The connection breaks. -/
def reconnect : Outbox ι :=
  { o with
    inFlight := 0
    refused := false
    inFlight_le := Nat.zero_le _
    carriedOut := ⟨o.log, by simp⟩
    asked := fun h => by cases h }

/-- The client learns that the first operation was carried out. -/
def acknowledge {a : ι} {rest : List ι} (hfront : o.pending = a :: rest)
    (h : 0 < o.inFlight) : Outbox ι where
  pending := rest
  log := o.log
  acked := o.acked ++ [a]
  inFlight := o.inFlight - 1
  refused := o.refused
  unsteady := o.unsteady
  inFlight_le := by
    have hle := o.inFlight_le
    rw [hfront, List.length_cons] at hle
    omega
  carriedOut := by
    obtain ⟨before, hbefore⟩ := o.carriedOut
    obtain ⟨n, hn⟩ := Nat.exists_eq_add_of_lt h
    refine ⟨before ++ [a], ?_⟩
    have hn' : o.inFlight = n + 1 := by omega
    rw [hbefore, hfront, hn', List.take_succ_cons, Nat.add_sub_cancel, List.append_assoc]
    rfl
  asked hrefused := by
    have hlt := o.asked hrefused
    rw [hfront, List.length_cons] at hlt
    omega
  known := by
    refine List.append_subset.mpr ⟨o.known, List.cons_subset.mpr ⟨?_, List.nil_subset _⟩⟩
    obtain ⟨before, hbefore⟩ := o.carriedOut
    obtain ⟨n, hn⟩ := Nat.exists_eq_add_of_lt h
    have hn' : o.inFlight = n + 1 := by omega
    rw [hbefore, hfront, hn', List.take_succ_cons]
    simp
  same hsteady := by
    -- what follows `a` in the log is pending, and `a` is the last of its kind
    obtain ⟨before, hbefore⟩ := o.carriedOut
    obtain ⟨n, hn⟩ := Nat.exists_eq_add_of_lt h
    have hn' : o.inFlight = n + 1 := by omega
    have hlog : o.log = before ++ a :: rest.take n := by
      rw [hbefore, hfront, hn', List.take_succ_cons]
    have hrest : (o.log ++ rest).dedup = (before ++ a :: rest).dedup := by
      have hsub : rest.take n ⊆ rest := List.take_subset n rest
      have hmiddle := dedup_append_of_subset (before ++ [a]) hsub
      rw [hlog]
      simpa using hmiddle
    have hpending : (o.log ++ a :: rest).dedup = (before ++ a :: rest).dedup := by
      have hsub : a :: rest.take n ⊆ a :: rest :=
        List.cons_subset_cons a (List.take_subset n rest)
      have hmiddle := dedup_append_of_subset before hsub
      rw [hlog, List.append_assoc]
      exact hmiddle
    have hsame := o.same hsteady
    rw [hfront] at hsame
    rw [hrest, ← hpending, hsame, List.append_assoc]
    rfl

/-- The client learns that the first operation was refused. -/
def drop {a : ι} {rest : List ι} (hfront : o.pending = a :: rest) : Outbox ι where
  pending := rest
  log := o.log
  acked := o.acked
  inFlight := 0
  refused := false
  unsteady := o.unsteady || decide (a ∈ o.log)
  inFlight_le := Nat.zero_le _
  carriedOut := ⟨o.log, by simp⟩
  asked h := by cases h
  known := o.known
  same hsteady := by
    obtain ⟨hsteady, hfresh⟩ := Bool.or_eq_false_iff.mp hsteady
    have hfresh : a ∉ o.log := of_decide_eq_false hfresh
    have hsame := o.same hsteady
    rw [hfront] at hsame
    by_cases hagain : a ∈ rest
    · have hsub : [a] ⊆ rest := List.cons_subset.mpr ⟨hagain, List.nil_subset _⟩
      have hleft := dedup_append_of_subset o.log hsub
      have hright := dedup_append_of_subset o.acked hsub
      rw [← hleft, ← hright]
      exact hsame
    · -- `a` is nowhere else, so both sides lose it
      have hlost : ∀ as : List ι, a ∉ as →
          (as ++ rest).dedup = (as ++ a :: rest).dedup.filter fun b => b ≠ a := by
        intro as has
        rw [← dedup_filter, List.filter_append, List.filter_cons_of_neg (by simp)]
        have hkeep : ∀ bs : List ι, a ∉ bs → bs.filter (fun b => b ≠ a) = bs := by
          intro bs hbs
          refine List.filter_eq_self.mpr ?_
          intro b hb
          exact decide_eq_true fun heq => hbs (heq ▸ hb)
        rw [hkeep as has, hkeep rest hagain]
      rw [hlost o.log hfresh, hsame, hlost o.acked fun hacked => hfresh (o.known hacked)]

theorem unsteady_drop {a : ι} {rest : List ι} (hfront : o.pending = a :: rest)
    [Decidable (a ∈ o.log)] :
    (o.drop hfront).unsteady = (o.unsteady || decide (a ∈ o.log)) :=
  congrArg (o.unsteady || ·) (decide_eq_decide.mpr Iff.rfl)

theorem inFlight_le_log : o.inFlight ≤ o.log.length := by
  obtain ⟨before, hbefore⟩ := o.carriedOut
  rw [hbefore, List.length_append, List.length_take, Nat.min_eq_left o.inFlight_le]
  exact Nat.le_add_left _ _

/-- The end of the log is pending. -/
theorem getElem?_log {i : Nat} (hi : o.log.length ≤ i + o.inFlight) (hlt : i < o.log.length) :
    o.log[i]? = o.pending[i + o.inFlight - o.log.length]? := by
  obtain ⟨before, hbefore⟩ := o.carriedOut
  have hlength : o.log.length = before.length + o.inFlight := by
    rw [hbefore, List.length_append, List.length_take, Nat.min_eq_left o.inFlight_le]
  have hindex : i + o.inFlight - o.log.length = i - before.length := by omega
  rw [hindex]
  conv_lhs => rw [hbefore]
  rw [List.getElem?_append_right (by omega), List.getElem?_take, if_pos (by omega)]

/-- The place in the log of the operation that is acknowledged next. -/
def place : Nat := o.log.length - o.inFlight

theorem getElem?_place {a : ι} {rest : List ι} (hfront : o.pending = a :: rest)
    (h : 0 < o.inFlight) : o.log[o.place]? = some a := by
  have hle := o.inFlight_le_log
  unfold place
  rw [o.getElem?_log (by omega) (by omega),
    show o.log.length - o.inFlight + o.inFlight - o.log.length = 0 by omega, hfront]
  rfl

/-- What follows it in the log stays pending. -/
theorem mem_of_place_lt {a : ι} {rest : List ι} (hfront : o.pending = a :: rest) {i : Nat}
    {b : ι} (hi : o.place < i) (hb : o.log[i]? = some b) : b ∈ rest := by
  have hle := o.inFlight_le_log
  have hlt := (List.getElem?_eq_some_iff.mp hb).1
  unfold place at hi
  obtain ⟨j, hj⟩ : ∃ j, i + o.inFlight - o.log.length = j + 1 :=
    ⟨i + o.inFlight - o.log.length - 1, by omega⟩
  rw [o.getElem?_log (by omega) hlt, hj, hfront, List.getElem?_cons_succ] at hb
  exact List.mem_of_getElem? hb

/-- **Repetitions do no harm.** -/
theorem foldl_pending {f : σ → ι → σ} (hf : Absorbing f) (hsteady : o.unsteady = false)
    (s : σ) : o.pending.foldl f (o.log.foldl f s) = (o.acked ++ o.pending).foldl f s := by
  rw [← List.foldl_append]
  exact hf.foldl_congr (o.same hsteady) s

end Outbox

end ValentinesDay.Verified.Resend
