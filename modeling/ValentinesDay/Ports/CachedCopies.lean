import ValentinesDay.Ports.Backend
import ValentinesDay.Verified.Resend

/-!
# What the client's cache misses

The cached document is a copy of the backend's, and the log of the backend has
changes that it misses.  The invariant `Kept` says what becomes of these: they
are still pending, so they are applied on top of the copy.  It is shown here for
one document and each of the steps that an outbox can make.

## Main results

* `Kept.acknowledge_self` — the document made from an answer; if no answer for it
  was lost, it is a copy again.
* `Kept.updates` — documents from snapshots.
-/

namespace ValentinesDay.Ports.BackendSync

open ValentinesDay.Verified.Absorb
open ValentinesDay.Verified.Ledger
open ValentinesDay.Verified.Resend
open ValentinesDay.Ports.Firestore
open ValentinesDay.Ports.Mutations
open ValentinesDay.Ports.LocalDocuments
open ValentinesDay.Ports.WritePipeline

/-! ## Numbered writes -/

/-- The data of one document under a write of some number. -/
def numberedAt (key : DocumentKey) (d : Option ObjectValue) (w : Mutation × Nat) :
    Option ObjectValue :=
  appAt key d w.1

theorem absorbing_numberedAt (key : DocumentKey) : Absorbing (numberedAt key) :=
  (absorbing_appAt key).comap Prod.fst

theorem foldl_numberedAt (key : DocumentKey) (ws : List (Mutation × Nat))
    (d : Option ObjectValue) :
    ws.foldl (numberedAt key) d = (ws.map (·.1)).foldl (appAt key) d := by
  rw [List.foldl_map]
  rfl

/-- The documents and their versions before the first write of the client. -/
structure Origin where
  data : DocumentKey → Option ObjectValue
  version : DocumentKey → Nat

/-- A log of numbered writes. -/
abbrev WriteLog := List (Stamped (Mutation × Nat))

namespace Origin

variable (origin : Origin)

/-- The data of a document after the log. -/
def dataAt (log : WriteLog) (key : DocumentKey) : Option ObjectValue :=
  after (numberedAt key) (origin.data key) log

/-- The time of its last change. -/
def updateTime (log : WriteLog) (key : DocumentKey) : Nat :=
  Verified.Ledger.version (numberedAt key) (origin.data key) (origin.version key) log

/-- Write `i` of the log changes the document later than version `v`. -/
def MissesAt (log : WriteLog) (key : DocumentKey) (v i : Nat)
    (e : Stamped (Mutation × Nat)) : Prop :=
  Misses (numberedAt key) (origin.data key) log v i e

/-- The document at some time, with a version that fits. -/
def CopyAt (now : Nat) (log : WriteLog) (key : DocumentKey) (v : Nat)
    (d : Option ObjectValue) : Prop :=
  Copy (numberedAt key) (origin.data key) (origin.version key) now log v d

/-- The log has rising times, for every document. -/
def RisingTo (now : Nat) (log : WriteLog) : Prop :=
  ∀ key, Rising (origin.version key) now log

variable {origin}

/-- Only writes of a document change it. -/
theorem MissesAt.key_eq {log : WriteLog} {key : DocumentKey} {v i : Nat}
    {e : Stamped (Mutation × Nat)} (h : origin.MissesAt log key v i e) :
    e.op.1.key = key := by
  by_contra hne
  exact h.1.2 (appAt_ne hne _)

end Origin

/-! ## Cached documents -/

/-- The version of a cached document; nothing is older than one. -/
def versionOf (doc : Option MaybeDocument) : Nat := (doc.map (·.version)).getD 0

/-- Cached documents that are what their version says: those from a snapshot, and
known ones made from an answer, unless an answer for that document was lost. -/
def Trusted (lost : List DocumentKey) (key : DocumentKey) (doc : Option MaybeDocument) :
    Prop :=
  ∃ d ∈ doc, d.hasPendingWrites = false ∨ key ∉ lost ∧ d.isUnknownDocument = false

instance (lost : List DocumentKey) (key : DocumentKey) (doc : Option MaybeDocument) :
    Decidable (Trusted lost key doc) :=
  inferInstanceAs (Decidable (∃ d ∈ doc, _))

section Cached

variable (origin : Origin)

/-- What a cached document misses is pending; as long as no answer for it was
lost, it is on its way. -/
structure Kept (now : Nat) (log : WriteLog) (o : Outbox (Mutation × Nat))
    (lost : List DocumentKey) (key : DocumentKey) (doc : Option MaybeDocument) : Prop where
  pending : ∀ i e, origin.MissesAt log key (versionOf doc) i e → e.op ∈ o.pending
  onItsWay : key ∉ lost → ∀ i e, origin.MissesAt log key (versionOf doc) i e →
    log.length ≤ i + o.inFlight
  copy : Trusted lost key doc → origin.CopyAt now log key (versionOf doc) (dataOf doc)

variable {origin} {now : Nat} {log : WriteLog} {o : Outbox (Mutation × Nat)}
  {lost : List DocumentKey} {key : DocumentKey} {doc : Option MaybeDocument}

theorem Kept.issue (h : Kept origin now log o lost key doc) (w : Mutation × Nat) :
    Kept origin now log (o.issue w) lost key doc where
  pending i e he := List.mem_append_left [w] (h.pending i e he)
  onItsWay := h.onItsWay
  copy := h.copy

theorem Kept.carryOut (h : Kept origin now log o lost key doc)
    {e : Stamped (Mutation × Nat)} (hnext : o.pending[o.inFlight]? = some e.op)
    (hrefused : o.refused = false) (hlater : now < e.time) :
    Kept origin e.time (log ++ [e]) (o.carryOut hnext hrefused) lost key doc where
  pending i e' he' := by
    rcases Misses.of_concat he' with hold | ⟨-, rfl⟩
    · exact h.pending i e' hold
    · exact List.mem_of_getElem? hnext
  onItsWay hlost i e' he' := by
    show (log ++ [e]).length ≤ i + (o.inFlight + 1)
    rw [List.length_append, List.length_singleton]
    rcases Misses.of_concat he' with hold | ⟨rfl, -⟩
    · have hway := h.onItsWay hlost i e' hold
      omega
    · omega
  copy htrusted := Copy.concat (h.copy htrusted) hlater

theorem Kept.refuse (h : Kept origin now log o lost key doc) {w : Mutation × Nat}
    (hnext : o.pending[o.inFlight]? = some w) :
    Kept origin now log (o.refuse hnext) lost key doc where
  pending := h.pending
  onItsWay := h.onItsWay
  copy := h.copy

theorem Trusted.of_lost {lost' : List DocumentKey} (h : Trusted (lost ++ lost') key doc) :
    Trusted lost key doc := by
  obtain ⟨d, hd, hsynced | ⟨hlost, hknown⟩⟩ := h
  · exact ⟨d, hd, .inl hsynced⟩
  · exact ⟨d, hd, .inr ⟨fun hmem => hlost (List.mem_append_left lost' hmem), hknown⟩⟩

/-- The stream has ended: the answers in flight are lost. -/
theorem Kept.reconnect (h : Kept origin now log o lost key doc)
    (hlog : o.log = log.map (·.op)) :
    Kept origin now log o.reconnect
      (lost ++ ((o.pending.map (·.1)).take o.inFlight).map (·.key)) key doc where
  pending := h.pending
  onItsWay hlost i e he := by
    rw [List.mem_append, not_or] at hlost
    have hway := h.onItsWay hlost.1 i e he
    -- what is in flight is not a write of this document
    have hlt : i < log.length := he.1.lt_length
    have hlength : o.log.length = log.length := by rw [hlog, List.length_map]
    by_contra
    have hentry : o.log[i]? = some e.op := by
      rw [hlog, List.getElem?_map, he.1.1]
      rfl
    rw [o.getElem?_log (by omega) (by omega)] at hentry
    refine hlost.2 (List.mem_map.mpr ⟨e.op.1, ?_, he.key_eq⟩)
    refine List.mem_of_getElem? (i := i + o.inFlight - o.log.length) ?_
    rw [List.getElem?_take, if_pos (by omega), List.getElem?_map, hentry]
    rfl
  copy htrusted := h.copy htrusted.of_lost

/-- What was refused had not been carried out. -/
theorem Kept.drop (h : Kept origin now log o lost key doc) (hlog : o.log = log.map (·.op))
    {w : Mutation × Nat} {rest : List (Mutation × Nat)} (hfront : o.pending = w :: rest)
    (hfresh : w ∉ o.log) (hnone : o.inFlight = 0) :
    Kept origin now log (o.drop hfront) lost key doc where
  pending i e he := by
    have hmem := h.pending i e he
    rw [hfront] at hmem
    rcases List.mem_cons.mp hmem with heq | hrest
    · refine absurd ?_ hfresh
      rw [← heq, hlog]
      exact List.mem_map_of_mem (List.mem_of_getElem? he.1.1)
    · exact hrest
  onItsWay hlost i e he := by
    have hway := h.onItsWay hlost i e he
    rwa [hnone] at hway
  copy := h.copy

/-! ### Answers -/

/-- What an answer makes of the cached document. -/
def answered (m : Mutation) (updateTime : Nat) (doc : Option MaybeDocument) :
    Option MaybeDocument :=
  if versionOf doc < updateTime then some (m.applyToRemoteDocument doc updateTime) else doc

theorem version_applyToRemoteDocument (m : Mutation) (doc : Option MaybeDocument)
    (version : Nat) : (m.applyToRemoteDocument doc version).version = version := by
  cases m with
  | set key value precondition => rfl
  | patch key value mask precondition =>
      rw [Mutation.applyToRemoteDocument]
      split <;> rfl
  | delete key precondition => rfl

theorem le_versionOf_answered (m : Mutation) (updateTime : Nat)
    (doc : Option MaybeDocument) : updateTime ≤ versionOf (answered m updateTime doc) := by
  unfold answered
  split
  · exact (version_applyToRemoteDocument m doc updateTime).ge
  · next hold => exact not_lt.mp hold

/-- An answer leaves a document unknown, replaces it, or is applied to data that
was there. -/
theorem applyToRemoteDocument_cases {m : Mutation} (hm : m.FromApp)
    (doc : Option MaybeDocument) (version : Nat) :
    m.applyToRemoteDocument doc version = .unknownDocument version ∨
    (m.applyToRemoteDocument doc version).hasPendingWrites = true ∧
      ((∀ d, appAt m.key d m = dataOf (some (m.applyToRemoteDocument doc version))) ∨
        (dataOf doc).isSome ∧
          appAt m.key (dataOf doc) m =
            dataOf (some (m.applyToRemoteDocument doc version))) := by
  cases m with
  | set key value precondition =>
      cases hm
      exact .inr ⟨rfl, .inl fun d => appAt_set d value⟩
  | patch key value mask precondition =>
      cases hm
      cases hdoc : dataOf doc with
      | none =>
          refine .inl (if_pos ?_)
          rw [Precondition.isValidFor, hdoc]
          rfl
      | some data =>
          have hvalid : ¬(Precondition.mustExist true).isValidFor doc = false := by
            rw [Precondition.isValidFor, hdoc]
            simp
          rw [Mutation.applyToRemoteDocument, if_neg hvalid, dataOf_document, patchDocument,
            hdoc]
          exact .inr ⟨rfl, .inr ⟨rfl, appAt_patch (some data) value mask⟩⟩
  | delete key precondition => exact False.elim hm

theorem trusted_of_isSome (hlost : key ∉ lost) (h : (dataOf doc).isSome) :
    Trusted lost key doc := by
  cases doc with
  | none => cases h
  | some d =>
      refine ⟨d, rfl, .inr ⟨hlost, ?_⟩⟩
      cases d with
      | document data version state => rfl
      | noDocument version committed => rfl
      | unknownDocument version => cases h

/-- The document made from an answer, at the place of its write in the log. -/
theorem copy_answered (hrising : origin.RisingTo now log) {e : Stamped (Mutation × Nat)}
    (happ : e.op.1.FromApp) (hkey : e.op.1.key = key) {p : Nat} (hat : log[p]? = some e)
    (hcopy : Trusted lost key doc →
      origin.CopyAt now log key (versionOf doc) (dataOf doc))
    (hmisses : key ∉ lost → ∀ i b, origin.MissesAt log key (versionOf doc) i b → p ≤ i)
    (htrusted : Trusted lost key
      (answered e.op.1 (origin.updateTime (log.take (p + 1)) key) doc)) :
    origin.CopyAt now log key
      (versionOf (answered e.op.1 (origin.updateTime (log.take (p + 1)) key) doc))
      (dataOf (answered e.op.1 (origin.updateTime (log.take (p + 1)) key) doc)) := by
  subst hkey
  obtain ⟨time, htime⟩ : ∃ time, origin.updateTime (log.take (p + 1)) e.op.1.key = time :=
    ⟨_, rfl⟩
  rw [htime] at htrusted ⊢
  unfold answered at htrusted ⊢
  by_cases hnew : versionOf doc < time
  · rw [if_pos hnew] at htrusted ⊢
    obtain ⟨d, hd, hcases⟩ := htrusted
    cases hd
    have hversion : versionOf (some (e.op.1.applyToRemoteDocument doc time)) = time :=
      version_applyToRemoteDocument e.op.1 doc time
    rw [hversion]
    rcases applyToRemoteDocument_cases happ doc time with
      hunknown | ⟨hpending, hconst | ⟨hdata, happlied⟩⟩
    · rw [hunknown] at hcases
      rcases hcases with hsynced | ⟨-, hknown⟩
      · cases hsynced
      · cases hknown
    · refine ⟨p + 1, (List.getElem?_eq_some_iff.mp hat).1, ?_, htime.le, ?_, ?_⟩
      · rw [List.take_add_one, hat, Option.toList_some, after_concat]
        exact (hconst _).symm
      · rw [← htime]
        exact ((hrising _).take _).version_le
      · intro i b hi hb
        rw [← htime]
        exact (hrising _).version_lt hi hb
    · have hlost : e.op.1.key ∉ lost := by
        rcases hcases with hsynced | ⟨hlost, -⟩
        · rw [hpending] at hsynced
          cases hsynced
        · exact hlost
      have hdoc := hcopy (trusted_of_isSome hlost hdata)
      rw [← htime] at hnew
      have hcaught := Copy.catchUp (hrising _) hdoc (hmisses hlost) hat hnew
      have hdone : numberedAt e.op.1.key (dataOf doc) e.op =
          dataOf (some (e.op.1.applyToRemoteDocument doc time)) := happlied
      rw [hdone] at hcaught
      rw [← htime] at hcaught ⊢
      exact hcaught
  · rw [if_neg hnew] at htrusted ⊢
    exact hcopy htrusted

theorem length_log (hlog : o.log = log.map (·.op)) : o.log.length = log.length := by
  rw [hlog, List.length_map]

/-- The entry of the log at the place of the write that is answered next. -/
theorem exists_entry (hlog : o.log = log.map (·.op)) {w : Mutation × Nat}
    {rest : List (Mutation × Nat)} (hfront : o.pending = w :: rest) (hway : 0 < o.inFlight) :
    ∃ e, log[o.place]? = some e ∧ e.op = w := by
  have hat := o.getElem?_place hfront hway
  rw [hlog, List.getElem?_map, Option.map_eq_some_iff] at hat
  exact hat

/-- The document that the answer is about. -/
theorem Kept.acknowledge_self {w : Mutation × Nat} (h : Kept origin now log o lost w.1.key doc)
    (hrising : origin.RisingTo now log) (hlog : o.log = log.map (·.op))
    {rest : List (Mutation × Nat)} (happ : w.1.FromApp) (hfront : o.pending = w :: rest)
    (hway : 0 < o.inFlight) :
    Kept origin now log (o.acknowledge hfront hway) lost w.1.key
      (answered w.1 (origin.updateTime (log.take (o.place + 1)) w.1.key) doc) := by
  obtain ⟨e, hat, rfl⟩ := exists_entry hlog hfront hway
  have hle := o.inFlight_le_log
  have hlength := length_log hlog
  have hlater : ∀ i b, origin.MissesAt log e.op.1.key
      (versionOf (answered e.op.1 (origin.updateTime (log.take (o.place + 1)) e.op.1.key) doc))
      i b → o.place < i := by
    intro i b hb
    exact Misses.le_of_version (hrising _) (Misses.of_le (le_versionOf_answered _ _ doc) hb)
  exact
    { pending := fun i b hb => by
        have hentry : o.log[i]? = some b.op := by
          rw [hlog, List.getElem?_map, hb.1.1]
          rfl
        exact o.mem_of_place_lt hfront (hlater i b hb) hentry
      onItsWay := fun _ i b hb => by
        have hi := hlater i b hb
        unfold Outbox.place at hi
        show log.length ≤ i + (o.inFlight - 1)
        omega
      copy := fun htrusted => by
        refine copy_answered hrising happ rfl hat h.copy ?_ htrusted
        intro hlost i b hb
        have hi := h.onItsWay hlost i b hb
        unfold Outbox.place
        omega }

/-- Any other document. -/
theorem Kept.acknowledge_other (h : Kept origin now log o lost key doc)
    (hlog : o.log = log.map (·.op)) {w : Mutation × Nat} {rest : List (Mutation × Nat)}
    (hfront : o.pending = w :: rest) (hway : 0 < o.inFlight) (hkey : w.1.key ≠ key) :
    Kept origin now log (o.acknowledge hfront hway) lost key doc := by
  have hother : ∀ i e, origin.MissesAt log key (versionOf doc) i e → e.op ≠ w := by
    rintro i e he rfl
    exact hkey he.key_eq
  have hle := o.inFlight_le_log
  have hlength := length_log hlog
  refine { pending := ?_, onItsWay := ?_, copy := h.copy }
  · intro i e he
    have hmem := h.pending i e he
    rw [hfront] at hmem
    exact (List.mem_cons.mp hmem).resolve_left (hother i e he)
  · intro hlost i e he
    have hi := h.onItsWay hlost i e he
    have hne : i ≠ o.place := by
      rintro rfl
      obtain ⟨b, hb, hop⟩ := exists_entry hlog hfront hway
      have hget : log[o.place]? = some e := he.1.1
      rw [hb] at hget
      cases hget
      exact hother _ _ he hop
    unfold Outbox.place at hne
    show log.length ≤ i + (o.inFlight - 1)
    omega

/-! ### Snapshots -/

/-- A document as the backend sends it. -/
def Origin.SentAt (origin : Origin) (now : Nat) (log : WriteLog) (key : DocumentKey)
    (sent : MaybeDocument) : Prop :=
  sent.version ≠ 0 ∧
    origin.CopyAt now log key sent.version (dataOf (some sent))

theorem Kept.updated (h : Kept origin now log o lost key doc) {sent : MaybeDocument}
    (hsent : origin.SentAt now log key sent) :
    Kept origin now log o lost key (updated doc sent) := by
  have hmade : LocalStore.isManufactured sent = false := by
    cases sent with
    | document data version state => rfl
    | noDocument version committed => exact decide_eq_false hsent.1
    | unknownDocument version => rfl
  unfold LocalDocuments.updated
  rw [hmade]
  simp only [Bool.false_eq_true, if_false]
  split
  · next hnewer =>
      have hle : versionOf doc ≤ sent.version := by
        cases doc with
        | none => exact Nat.zero_le _
        | some d =>
            rcases hnewer d rfl with hlt | ⟨heq, -⟩
            · exact hlt.le
            · exact heq.ge
      exact
        { pending := fun i e he => h.pending i e (Misses.of_le hle he)
          onItsWay := fun hlost i e he => h.onItsWay hlost i e (Misses.of_le hle he)
          copy := fun _ => hsent.2 }
  · exact h

theorem Kept.updates (h : Kept origin now log o lost key doc) {sent : List KeyedDocument}
    (hsent : ∀ e ∈ sent, origin.SentAt now log key e.document) :
    Kept origin now log o lost key
      (sent.foldl (fun doc e => LocalDocuments.updated doc e.document) doc) := by
  induction sent generalizing doc with
  | nil => exact h
  | cons e sent ih =>
      obtain ⟨he, hrest⟩ := List.forall_mem_cons.mp hsent
      rw [List.foldl_cons]
      exact ih (h.updated he) hrest

end Cached

end ValentinesDay.Ports.BackendSync
