import Mathlib.Data.Finmap
import ValentinesDay.Ports.Persistence
import ValentinesDay.Verified.Absorb

/-!
# Documents and mutations of the Firestore client

What the client under `Pods/FirebaseFirestore` makes of the app's `setData` and
`updateData`: mutations with preconditions, applied to documents in two ways.
`applyToLocalView` gives what the app sees before the backend has answered,
`applyToRemoteDocument` what is kept once it has.

A document map holds each document under its own key, so documents carry no key
here; a version is a commit time of the backend, `SnapshotVersion::None()` is 0.
Field paths have one segment, as all of the app's have; transforms,
which the app does not use, are left out.

On the data alone both ways are one function, `Mutation.act`, and the mutations
of users absorb their earlier occurrences: that is why a write may be sent
twice.
-/

namespace ValentinesDay.Ports.Mutations

open ValentinesDay.Ports.Firestore
open ValentinesDay.Ports.Persistence
open ValentinesDay.Verified.Absorb

/-! ## Documents -/

/-- The fields of a document, each name once. -/
abbrev ObjectValue := Finmap fun _ : String => Value

/-- The fields as `data()` shows them. -/
def ObjectValue.fields (data : ObjectValue) : Fields := fun name => data.lookup name

/-- An `ObjectValue` from the entries of a call. -/
def ObjectValue.ofList (entries : List (String × Value)) : ObjectValue :=
  (entries.map fun e => (⟨e.1, e.2⟩ : Sigma fun _ : String => Value)).toFinmap

theorem fields_ofList (entries : List (String × Value)) :
    (ObjectValue.ofList entries).fields = Fields.ofList entries := by
  funext name
  unfold ObjectValue.fields ObjectValue.ofList Fields.ofList
  rw [Finmap.dlookup_list_toFinmap]
  induction entries with
  | nil => rfl
  | cons e rest ih =>
      by_cases hname : name = e.1
      · subst hname
        rw [List.map_cons, List.dlookup_cons_eq, List.lookup_cons_self]
      · rw [List.map_cons, List.dlookup_cons_ne _ _ hname, ih, List.lookup_cons,
          beq_false_of_ne hname]

/-- `DocumentState` of `document.h`. -/
inductive DocumentState where
  | kLocalMutations
  | kCommittedMutations
  | kSynced
  deriving DecidableEq, Repr

/-- `Document`, `NoDocument` and `UnknownDocument`. -/
inductive MaybeDocument where
  | document (data : ObjectValue) (version : Nat) (state : DocumentState)
  | noDocument (version : Nat) (hasCommittedMutations : Bool)
  | unknownDocument (version : Nat)
  deriving DecidableEq

namespace MaybeDocument

/-- `MaybeDocument::version`. -/
def version : MaybeDocument → Nat
  | .document _ version _ => version
  | .noDocument version _ => version
  | .unknownDocument version => version

/-- `is_document`. -/
def isDocument : MaybeDocument → Bool
  | .document _ _ _ => true
  | _ => false

/-- `is_unknown_document`. -/
def isUnknownDocument : MaybeDocument → Bool
  | .unknownDocument _ => true
  | _ => false

/-- `HasPendingWrites`: of a document, local or committed mutations. -/
def hasPendingWrites : MaybeDocument → Bool
  | .document _ _ state => state = .kLocalMutations ∨ state = .kCommittedMutations
  | .noDocument _ hasCommittedMutations => hasCommittedMutations
  | .unknownDocument _ => true

/-- The data of an existing document. -/
def data : MaybeDocument → Option ObjectValue
  | .document data _ _ => some data
  | _ => none

end MaybeDocument

/-- The data of a document that may not be there at all. -/
def dataOf (maybeDoc : Option MaybeDocument) : Option ObjectValue :=
  maybeDoc.bind MaybeDocument.data

@[simp] theorem dataOf_document (data : ObjectValue) (version : Nat)
    (state : DocumentState) : dataOf (some (.document data version state)) = some data := rfl

/-! ## Preconditions -/

/-- `Precondition`: none, on existence, or on the update time. -/
inductive Precondition where
  | none
  | mustExist (exists_ : Bool)
  | updateTime (version : Nat)
  deriving DecidableEq, Repr

/-- `Precondition::IsValidFor`. -/
def Precondition.isValidFor (maybeDoc : Option MaybeDocument) : Precondition → Bool
  | .updateTime version =>
      match maybeDoc with
      | some (.document _ v _) => v = version
      | _ => false
  | .mustExist exists_ => exists_ = (dataOf maybeDoc).isSome
  | .none => true

/-- What `SetData`, `DeleteDocument` and `UpdateData` attach; `updateTime` is
for transactions. -/
def Precondition.OfUser : Precondition → Prop
  | .none => True
  | .mustExist exists_ => exists_ = true
  | .updateTime _ => False

/-- A user's precondition reads the data only. -/
def Precondition.allows (d : Option ObjectValue) : Precondition → Bool
  | .mustExist exists_ => exists_ = d.isSome
  | _ => true

theorem Precondition.isValidFor_eq_allows {p : Precondition} (hp : p.OfUser)
    (maybeDoc : Option MaybeDocument) :
    p.isValidFor maybeDoc = p.allows (dataOf maybeDoc) := by
  cases p with
  | none => rfl
  | mustExist exists_ => rfl
  | updateTime version => exact False.elim hp

/-! ## Mutations -/

/-- `SetMutation`, `PatchMutation` and `DeleteMutation`. -/
inductive Mutation where
  | set (key : DocumentKey) (value : ObjectValue) (precondition : Precondition)
  | patch (key : DocumentKey) (value : ObjectValue) (mask : List String)
      (precondition : Precondition)
  | delete (key : DocumentKey) (precondition : Precondition)
  deriving DecidableEq

/-- As `SetData`, `UpdateData` and `DeleteDocument` make them: only a patch may
depend on the document's existence. -/
def Mutation.OfApi : Mutation → Prop
  | .set _ _ precondition => precondition = .none
  | .patch _ _ _ precondition => precondition.OfUser
  | .delete _ precondition => precondition = .none

namespace Mutation

/-- `Mutation::key`. -/
def key : Mutation → DocumentKey
  | .set key _ _ => key
  | .patch key _ _ _ => key
  | .delete key _ => key

/-- `Mutation::precondition`. -/
def precondition : Mutation → Precondition
  | .set _ _ precondition => precondition
  | .patch _ _ _ precondition => precondition
  | .delete _ precondition => precondition

theorem OfApi.ofUser {m : Mutation} (h : m.OfApi) : m.precondition.OfUser := by
  cases m with
  | set key value precondition =>
      cases h
      trivial
  | patch key value mask precondition => exact h
  | delete key precondition =>
      cases h
      trivial

end Mutation

/-- `PatchObject`: each field of the mask is set from the value, or deleted if
the value does not have it. -/
def patchObject (value : ObjectValue) (mask : List String) (obj : ObjectValue) :
    ObjectValue :=
  mask.foldl (fun obj path =>
    match value.lookup path with
    | none => obj.erase path
    | some newValue => obj.insert path newValue) obj

@[simp] theorem lookup_patchObject (value : ObjectValue) (mask : List String)
    (obj : ObjectValue) (name : String) :
    (patchObject value mask obj).lookup name =
      if name ∈ mask then value.lookup name else obj.lookup name := by
  induction mask generalizing obj with
  | nil => simp [patchObject]
  | cons path mask ih =>
      have hstep : patchObject value (path :: mask) obj =
          patchObject value mask (match value.lookup path with
            | none => obj.erase path
            | some newValue => obj.insert path newValue) := rfl
      rw [hstep, ih]
      by_cases hmask : name ∈ mask
      · rw [if_pos hmask, if_pos (List.mem_cons_of_mem path hmask)]
      · rw [if_neg hmask]
        by_cases hname : name = path
        · subst hname
          rw [if_pos List.mem_cons_self]
          cases hvalue : value.lookup name with
          | none => exact Finmap.lookup_erase name obj
          | some newValue => exact Finmap.lookup_insert obj
        · have hnot : name ∉ path :: mask := by simp [hname, hmask]
          rw [if_neg hnot]
          cases hvalue : value.lookup path with
          | none => exact Finmap.lookup_erase_ne hname
          | some newValue => exact Finmap.lookup_insert_of_ne obj hname

/-- `PatchDocument`. -/
def patchDocument (value : ObjectValue) (mask : List String)
    (maybeDoc : Option MaybeDocument) : ObjectValue :=
  patchObject value mask ((dataOf maybeDoc).getD ∅)

/-- `GetPostMutationVersion`. -/
def getPostMutationVersion : Option MaybeDocument → Nat
  | some (.document _ version _) => version
  | _ => 0

/-- What the app sees of a mutation the backend has not answered. -/
def Mutation.applyToLocalView (m : Mutation) (maybeDoc : Option MaybeDocument) :
    Option MaybeDocument :=
  if m.precondition.isValidFor maybeDoc then
    match m with
    | .set _ value _ =>
        some (.document value (getPostMutationVersion maybeDoc) .kLocalMutations)
    | .patch _ value mask _ =>
        some (.document (patchDocument value mask maybeDoc)
          (getPostMutationVersion maybeDoc) .kLocalMutations)
    | .delete _ _ => some (.noDocument 0 false)
  else maybeDoc

/-- What is kept of a mutation the backend has accepted; `version` is that of
the `MutationResult`. -/
def Mutation.applyToRemoteDocument (m : Mutation) (maybeDoc : Option MaybeDocument)
    (version : Nat) : MaybeDocument :=
  match m with
  | .set _ value _ => .document value version .kCommittedMutations
  | .patch _ value mask precondition =>
      -- accepted on a document the cache does not have in the right version
      if precondition.isValidFor maybeDoc = false then .unknownDocument version
      else .document (patchDocument value mask maybeDoc) version .kCommittedMutations
  | .delete _ _ => .noDocument version true

/-! ## What a mutation does to the data -/

/-- The data after the mutation, from the data before it. -/
def Mutation.act (d : Option ObjectValue) (m : Mutation) : Option ObjectValue :=
  if m.precondition.allows d then
    match m with
    | .set _ value _ => some value
    | .patch _ value mask _ => some (patchObject value mask (d.getD ∅))
    | .delete _ _ => none
  else d

/-- The data of one document, under a mutation of this or another one. -/
def Mutation.actAt (key : DocumentKey) (d : Option ObjectValue) (m : Mutation) :
    Option ObjectValue :=
  if m.key = key then m.act d else d

theorem Mutation.actAt_self {m : Mutation} {key : DocumentKey} (h : m.key = key)
    (d : Option ObjectValue) : m.actAt key d = m.act d := if_pos h

theorem Mutation.actAt_ne {m : Mutation} {key : DocumentKey} (h : m.key ≠ key)
    (d : Option ObjectValue) : m.actAt key d = d := if_neg h

theorem dataOf_applyToLocalView {m : Mutation} (hm : m.OfApi)
    (maybeDoc : Option MaybeDocument) :
    dataOf (m.applyToLocalView maybeDoc) = m.act (dataOf maybeDoc) := by
  unfold Mutation.applyToLocalView Mutation.act
  rw [Precondition.isValidFor_eq_allows hm.ofUser]
  cases m.precondition.allows (dataOf maybeDoc) with
  | false => rfl
  | true => cases m <;> rfl

/-! ## The app's writes -/

/-- `SetData` and `UpdateData` with the data of the call. -/
def toMutation : Write → Mutation
  | .setData ref data => .set ref (ObjectValue.ofList data) .none
  | .updateData ref name value =>
      .patch ref (ObjectValue.ofList [(name, value)]) [name] (.mustExist true)

theorem ofApi_toMutation (w : Write) : (toMutation w).OfApi := by
  cases w with
  | setData ref data => rfl
  | updateData ref name value => rfl

/-- The data of one document under a write. -/
def writeAt (key : DocumentKey) (d : Option ObjectValue) (w : Write) :
    Option ObjectValue :=
  (toMutation w).actAt key d

theorem writeAt_setData (key : DocumentKey) (d : Option ObjectValue)
    (data : List (String × Value)) :
    writeAt key d (.setData key data) = some (ObjectValue.ofList data) :=
  if_pos rfl

theorem writeAt_updateData (key : DocumentKey) (d : Option ObjectValue) (name : String)
    (value : Value) : writeAt key d (.updateData key name value) =
      d.map (patchObject (ObjectValue.ofList [(name, value)]) [name]) := by
  cases d with
  | none => exact if_pos rfl
  | some obj => exact if_pos rfl

/-- The client's mutations mean to a document what the app's writes mean to
the store. -/
theorem lookup_apply_eq (store : Store) (key : DocumentKey) {d : Option ObjectValue}
    (hd : store.lookup key = d.map ObjectValue.fields) (w : Write) :
    (w.apply store).lookup key = (writeAt key d w).map ObjectValue.fields := by
  cases w with
  | setData ref data =>
      by_cases hkey : key = ref
      · subst hkey
        rw [lookup_setData_self, writeAt_setData, Option.map_some, fields_ofList]
      · rw [lookup_setData_ne store hkey, hd]
        exact congrArg _ (Mutation.actAt_ne (Ne.symm hkey) d).symm
  | updateData ref name value =>
      by_cases hkey : key = ref
      · subst hkey
        rw [lookup_updateData_self, writeAt_updateData, hd, Option.map_map, Option.map_map]
        refine congrArg (fun f => d.map f) (funext fun obj => funext fun other => ?_)
        have hlookup : (ObjectValue.ofList [(name, value)]).lookup name = some value := by
          have hfields := congrFun (fields_ofList [(name, value)]) name
          simpa [ObjectValue.fields, Fields.ofList] using hfields
        simp only [Function.comp, ObjectValue.fields, lookup_patchObject, List.mem_singleton]
        by_cases hother : other = name
        · subst hother
          rw [Function.update_self, if_pos rfl, hlookup]
        · rw [Function.update_of_ne hother, if_neg hother]
          rfl
      · rw [lookup_updateData_ne store hkey, hd]
        exact congrArg _ (Mutation.actAt_ne (Ne.symm hkey) d).symm

/-! ### The app's mutations absorb their earlier occurrences -/

/-- As `setData` without merging and `updateData` make them. -/
def Mutation.FromApp : Mutation → Prop
  | .set _ _ precondition => precondition = .none
  | .patch _ _ _ precondition => precondition = .mustExist true
  | .delete _ _ => False

instance : DecidablePred Mutation.FromApp
  | .set _ _ precondition => inferInstanceAs (Decidable (precondition = .none))
  | .patch _ _ _ precondition => inferInstanceAs (Decidable (precondition = .mustExist true))
  | .delete _ _ => inferInstanceAs (Decidable False)

theorem fromApp_toMutation (w : Write) : (toMutation w).FromApp := by
  cases w with
  | setData ref data => rfl
  | updateData ref name value => rfl

theorem Mutation.FromApp.ofApi {m : Mutation} (h : m.FromApp) : m.OfApi := by
  cases m with
  | set key value precondition => exact h
  | patch key value mask precondition =>
      cases h
      rfl
  | delete key precondition => exact False.elim h

/-- The data of one document, under a mutation of the app. -/
def appAt (key : DocumentKey) (d : Option ObjectValue) (m : Mutation) :
    Option ObjectValue :=
  if m.FromApp ∧ m.key = key then m.act d else d

theorem appAt_of_fromApp {m : Mutation} (h : m.FromApp) (key : DocumentKey)
    (d : Option ObjectValue) : appAt key d m = m.actAt key d := by
  unfold appAt Mutation.actAt
  simp only [h, true_and]

theorem appAt_ne {m : Mutation} {key : DocumentKey} (h : m.key ≠ key)
    (d : Option ObjectValue) : appAt key d m = d := if_neg fun hm => h hm.2

theorem appAt_set {key : DocumentKey} (d : Option ObjectValue) (value : ObjectValue) :
    appAt key d (.set key value .none) = some value := if_pos ⟨rfl, rfl⟩

theorem appAt_patch {key : DocumentKey} (d : Option ObjectValue) (value : ObjectValue)
    (mask : List String) :
    appAt key d (.patch key value mask (.mustExist true)) =
      d.map (patchObject value mask) := by
  cases d with
  | none => exact if_pos ⟨rfl, rfl⟩
  | some obj => exact if_pos ⟨rfl, rfl⟩

section Absorbing

variable (value value' obj : ObjectValue) (mask mask' : List String)

theorem patch_around :
    patchObject value mask (patchObject value' mask' (patchObject value mask obj)) =
      patchObject value mask (patchObject value' mask' obj) := by
  refine Finmap.ext_lookup fun name => ?_
  simp only [lookup_patchObject]
  by_cases hmask : name ∈ mask
  · rw [if_pos hmask, if_pos hmask]
  · simp only [if_neg hmask]

theorem patch_twice :
    patchObject value mask (patchObject value mask obj) = patchObject value mask obj := by
  refine Finmap.ext_lookup fun name => ?_
  simp only [lookup_patchObject]
  by_cases hmask : name ∈ mask
  · rw [if_pos hmask, if_pos hmask]
  · simp only [if_neg hmask]

/-- A mutation of this document, or of another one. -/
theorem appAt_cases (key : DocumentKey) (m : Mutation) :
    (∃ data, ∀ d, appAt key d m = some data) ∨
    (∃ value mask, ∀ d, appAt key d m = d.map (patchObject value mask)) ∨
    (∀ d, appAt key d m = d) := by
  by_cases hkey : m.FromApp ∧ m.key = key
  · obtain ⟨happ, rfl⟩ := hkey
    cases m with
    | set key value precondition =>
        cases happ
        exact .inl ⟨value, fun d => appAt_set d value⟩
    | patch key value mask precondition =>
        cases happ
        exact .inr (.inl ⟨value, mask, fun d => appAt_patch d value mask⟩)
    | delete key precondition => cases happ
  · exact .inr (.inr fun d => if_neg hkey)

theorem absorbing_appAt (key : DocumentKey) : Absorbing (appAt key) where
  twice d m := by
    rcases appAt_cases key m with ⟨data, hm⟩ | ⟨value, mask, hm⟩ | hm
    · rw [hm, hm]
    · simp only [hm, Option.map_map]
      exact congrArg (fun f => d.map f) (funext fun obj => patch_twice value obj mask)
    · rw [hm]
  around d m m' := by
    rcases appAt_cases key m with ⟨data, hm⟩ | ⟨value, mask, hm⟩ | hm
    · rw [hm, hm]
    · rcases appAt_cases key m' with ⟨data', hm'⟩ | ⟨value', mask', hm'⟩ | hm'
      · rw [hm', hm']
      · simp only [hm, hm', Option.map_map]
        exact congrArg (fun f => d.map f)
          (funext fun obj => patch_around value value' obj mask mask')
      · simp only [hm', hm, Option.map_map]
        exact congrArg (fun f => d.map f) (funext fun obj => patch_twice value obj mask)
    · rw [hm, hm, hm]

/-- A mutation of the app that is carried out leaves a document. -/
theorem isSome_act {m : Mutation} (hm : m.FromApp) {d : Option ObjectValue}
    (hallows : m.precondition.allows d = true) : (m.act d).isSome := by
  unfold Mutation.act
  rw [if_pos hallows]
  cases m with
  | set key value precondition => rfl
  | patch key value mask precondition => rfl
  | delete key precondition => exact False.elim hm

end Absorbing

end ValentinesDay.Ports.Mutations
