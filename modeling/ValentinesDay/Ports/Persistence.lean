import ValentinesDay.Ports.Firestore
import ValentinesDay.Verified.Versions

/-!
# The persisted store and its versions

The store is a finite map from document keys to fields.  The app writes it in
two ways only: `setData` replaces a whole document, `updateData` changes one
field of a document that exists and does nothing otherwise.

The server keeps the history of the store: a listener or a read is given the
version of some moment up to now, which is how a screen comes to act on a
lagging copy.
-/

namespace ValentinesDay.Ports.Persistence

open ValentinesDay.Verified.Versions
open ValentinesDay.Ports.Runtime
open ValentinesDay.Ports.Firestore

/-- Documents by key, no key twice. -/
abbrev Store := AList (fun _ : DocumentKey => Fields)

/-- One field of one document. -/
def field (store : Store) (ref : DocumentKey) (name : String) : Option Value :=
  (store.lookup ref).bind (· name)

/-- The two calls with which the app writes. -/
inductive Write where
  | setData (ref : DocumentKey) (data : List (String × Value))
  | updateData (ref : DocumentKey) (name : String) (value : Value)
  deriving DecidableEq, Repr

/-- The store after the call; `updateData` fails on a missing document. -/
def Write.apply (store : Store) : Write → Store
  | .setData ref data => store.insert ref (Fields.ofList data)
  | .updateData ref name value =>
      match store.lookup ref with
      | none => store
      | some d => store.insert ref (Function.update d name (some value))

/-- What a callback of a screen asks of the store, the user and the queues. -/
inductive Effect where
  | write (w : Write)
  | showMessage (message : MessageContent)
  | loadGeoJson (cluenumber : String)
  deriving DecidableEq, Repr

/-! ## What one write changes -/

section Writes

variable (store : Store) (ref key : DocumentKey)

theorem lookup_setData_self (data : List (String × Value)) :
    ((Write.setData ref data).apply store).lookup ref =
      some (Fields.ofList data) :=
  AList.lookup_insert store

theorem lookup_setData_ne {ref key : DocumentKey} (h : key ≠ ref)
    (data : List (String × Value)) :
    ((Write.setData ref data).apply store).lookup key = store.lookup key :=
  AList.lookup_insert_ne h

theorem lookup_updateData_self (name : String) (value : Value) :
    ((Write.updateData ref name value).apply store).lookup ref =
      (store.lookup ref).map fun d => Function.update d name (some value) := by
  cases h : store.lookup ref with
  | none => simp [Write.apply, h]
  | some d => simp [Write.apply, h, AList.lookup_insert]

theorem lookup_updateData_ne {ref key : DocumentKey} (h : key ≠ ref)
    (name : String) (value : Value) :
    ((Write.updateData ref name value).apply store).lookup key =
      store.lookup key := by
  cases hd : store.lookup ref with
  | none => simp [Write.apply, hd]
  | some d => simp [Write.apply, hd, AList.lookup_insert_ne h]

/-- `updateData` neither creates nor removes a document. -/
theorem isSome_lookup_updateData (name : String) (value : Value) :
    (((Write.updateData ref name value).apply store).lookup key).isSome =
      (store.lookup key).isSome := by
  by_cases h : key = ref
  · subst h
    rw [lookup_updateData_self, Option.isSome_map]
  · rw [lookup_updateData_ne store h]

theorem field_updateData_self (name : String) (value : Value)
    (h : (store.lookup ref).isSome) :
    field ((Write.updateData ref name value).apply store) ref name =
      some value := by
  obtain ⟨d, hd⟩ := Option.isSome_iff_exists.mp h
  simp [field, lookup_updateData_self, hd]

/-- `updateData` leaves every other field, of this document or another, as it
was. -/
theorem field_updateData_ne {ref key : DocumentKey} {name other : String}
    (h : key ≠ ref ∨ other ≠ name) (value : Value) :
    field ((Write.updateData ref name value).apply store) key other =
      field store key other := by
  by_cases hkey : key = ref
  · subst hkey
    have hname : other ≠ name := h.resolve_left (fun hne => hne rfl)
    unfold field
    rw [lookup_updateData_self]
    cases store.lookup key with
    | none => rfl
    | some d => exact Function.update_of_ne hname (some value) d
  · unfold field
    rw [lookup_updateData_ne store hkey]

theorem field_setData_self (data : List (String × Value)) (name : String) :
    field ((Write.setData ref data).apply store) ref name = data.lookup name := by
  rw [field, lookup_setData_self]
  rfl

theorem field_setData_ne {ref key : DocumentKey} (h : key ≠ ref)
    (data : List (String × Value)) (name : String) :
    field ((Write.setData ref data).apply store) key name =
      field store key name := by
  rw [field, lookup_setData_ne store h, field]

end Writes

/-! ## Clues -/

/-- `name` is the ID of a document of the collection `clues`. -/
structure IsClue (store : Store) (name : String) : Prop where
  id : IsDocumentID name
  found : (store.lookup (clueKey name)).isSome

instance (store : Store) (name : String) : Decidable (IsClue store name) :=
  decidable_of_iff (IsDocumentID name ∧ (store.lookup (clueKey name)).isSome)
    ⟨fun h => ⟨h.1, h.2⟩, fun h => ⟨h.id, h.found⟩⟩

/-- The clue's `Locked` reads as false. -/
def Unlocked (store : Store) (name : String) : Prop :=
  (field store (clueKey name) "Locked").bind Value.asBool = some false

/-- The clue's `solved` reads as true. -/
def Solved (store : Store) (name : String) : Prop :=
  (field store (clueKey name) "solved").bind Value.asBool = some true

instance (store : Store) (name : String) : Decidable (Unlocked store name) := by
  unfold Unlocked
  infer_instance

instance (store : Store) (name : String) : Decidable (Solved store name) := by
  unfold Solved
  infer_instance

/-- The persisted `last-path`. -/
def lastPath (store : Store) : Option Value := field store lastPathKey "last-path"

theorem clueKey_injective {a b : String} (h : clueKey a = clueKey b) : a = b := by
  simpa [clueKey] using h

theorem clueKey_ne_lastPathKey (name : String) : clueKey name ≠ lastPathKey := by
  simp [clueKey, lastPathKey]

/-! ## The server -/

/-- The store with its versions.  A write is accepted at once and is never
undone. -/
abbrev Server := History Store

/-- The write makes a version. -/
def Server.write (s : Server) (w : Write) : Server := s.push (w.apply s.current)

@[simp] theorem Server.current_write (s : Server) (w : Write) :
    (s.write w).current = w.apply s.current :=
  History.current_push s _

/-- What a read of one document is given: an error, or the document as it was
in some version up to now. -/
def Server.response (s : Server) (ref : DocumentKey) :
    Option Nat → DocumentResponse
  | none => .error
  | some version => .snapshot ((s.read version).lookup ref)

/-- Only the writes of a callback reach the server. -/
def Server.perform (s : Server) : Effect → Server
  | .write w => s.write w
  | .showMessage _ => s
  | .loadGeoJson _ => s

/-- The writes of a callback that may abort before it does anything. -/
def Server.performAll (s : Server) : Except Crash (List Effect) → Server
  | .ok effects => effects.foldl Server.perform s
  | .error _ => s

/-- What each write of a callback keeps, the callback keeps. -/
theorem foldl_perform_of_writes {I : Server → Prop} {effects : List Effect}
    (hwrite : ∀ w, .write w ∈ effects → ∀ s, I s → I (s.write w)) {s : Server}
    (h : I s) : I (effects.foldl Server.perform s) := by
  induction effects generalizing s with
  | nil => exact h
  | cons effect effects ih =>
      have hrest : ∀ w, .write w ∈ effects → ∀ s, I s → I (s.write w) :=
        fun w hw => hwrite w (List.mem_cons_of_mem effect hw)
      cases effect with
      | write w => exact ih hrest (hwrite w List.mem_cons_self s h)
      | showMessage message => exact ih hrest h
      | loadGeoJson cluenumber => exact ih hrest h

theorem performAll_of_writes {I : Server → Prop} {p : Except Crash (List Effect)}
    (hwrite : ∀ effects, p = .ok effects → ∀ w, .write w ∈ effects →
      ∀ s, I s → I (s.write w)) {s : Server} (h : I s) : I (s.performAll p) := by
  cases p with
  | error c => exact h
  | ok effects => exact foldl_perform_of_writes (hwrite effects rfl) h

end ValentinesDay.Ports.Persistence
