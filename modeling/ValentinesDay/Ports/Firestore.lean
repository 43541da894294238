import Mathlib.Data.List.AList
import ValentinesDay.Ports.Runtime

/-!
# The Firestore documents of the hunt

Field values with the casts the app makes, the responses its callbacks are
given, and document paths.  A path is checked as the vendored client checks it
(`ResourcePath::FromString`, the `DocumentReference` constructor): one with
`//` or with an odd number of segments aborts the process before anything is
written.

A `String` stands for a Swift string up to canonical equivalence, which is what
Swift's `==` compares.
-/

namespace ValentinesDay.Ports.Firestore

open ValentinesDay.Ports.Runtime

/-! ## Field values -/

/-- A field value.  Integers and doubles are one case: both reach Swift as an
`NSNumber` and compare numerically.  Types no document of the hunt uses are
kept by an encoding. -/
inductive Value where
  | null
  | bool (b : Bool)
  | number (q : Rat)
  | string (s : String)
  | other (encoding : String)
  deriving DecidableEq, Repr

/-- `as? String`. -/
def Value.asString : Value → Option String
  | .string s => some s
  | _ => none

/-- `as? Bool`: a boolean, or an `NSNumber` equal to 0 or 1. -/
def Value.asBool : Value → Option Bool
  | .bool b => some b
  | .number q => if q = 0 then some false else if q = 1 then some true else none
  | _ => none

/-- The result of `data()` on an existing document. -/
abbrev Fields := String → Option Value

/-- `data[field] as? String`. -/
def Fields.string (d : Fields) (field : String) : Option String :=
  (d field).bind Value.asString

/-- `data[field] as? Bool`. -/
def Fields.bool (d : Fields) (field : String) : Option Bool :=
  (d field).bind Value.asBool

/-- `data?[field] as! String`. -/
def castString (data : Option Fields) (field : String) : Except Crash String :=
  match data.bind (·.string field) with
  | some s => .ok s
  | none => .error (.forcedCast field)

/-- `data?[field] as! Bool`. -/
def castBool (data : Option Fields) (field : String) : Except Crash Bool :=
  match data.bind (·.bool field) with
  | some b => .ok b
  | none => .error (.forcedCast field)

@[simp] theorem castString_eq_ok {data : Option Fields} {field s : String} :
    castString data field = .ok s ↔ data.bind (·.string field) = some s := by
  unfold castString
  cases data.bind (·.string field) <;> simp

@[simp] theorem castBool_eq_ok {data : Option Fields} {field : String} {b : Bool} :
    castBool data field = .ok b ↔ data.bind (·.bool field) = some b := by
  unfold castBool
  cases data.bind (·.bool field) <;> simp

/-- `["field": value, …]` as the fields of a document. -/
def Fields.ofList (entries : List (String × Value)) : Fields :=
  fun field => entries.lookup field

/-! ## Responses -/

/-- What the callback of a document read is given. -/
inductive DocumentResponse where
  | error
  | snapshot (data : Option Fields)

/-- `snapshot?.data()`. -/
def DocumentResponse.data : DocumentResponse → Option Fields
  | .error => none
  | .snapshot data => data

/-- A document of a query snapshot, with its `data()`. -/
structure QueryDocument where
  documentID : String
  data : Fields

/-- What the callback of a query listener is given. -/
inductive QueryResponse where
  | error
  | snapshot (documents : List QueryDocument)

/-- The document's `Locked` casts to `Bool`. -/
def HasLocked (d : QueryDocument) : Prop := (d.data.bool "Locked").isSome

instance (d : QueryDocument) : Decidable (HasLocked d) := by
  unfold HasLocked
  infer_instance

theorem castBool_locked {d : QueryDocument} {b : Bool}
    (h : d.data.bool "Locked" = some b) :
    castBool (some d.data) "Locked" = .ok b :=
  castBool_eq_ok.mpr h

/-! ## Paths -/

/-- The segments of a slash-separated path. -/
abbrev ResourcePath := List String

/-- `path.find("//") != npos`. -/
def hasDoubleSlash : List Char → Bool
  | '/' :: '/' :: _ => true
  | _ :: rest => hasDoubleSlash rest
  | [] => false

/-- `ResourcePath::FromString`: empty segments at the ends are skipped. -/
def ResourcePath.fromString (path : String) : Except Crash ResourcePath :=
  if hasDoubleSlash path.toList then
    .error (.hardAssert ("Invalid path (" ++ path ++
      "). Paths must not contain // in them."))
  else
    .ok (((path.toList.splitOn '/').filter (· ≠ [])).map String.ofList)

/-- `ResourcePath::CanonicalString`. -/
def ResourcePath.canonicalString (path : ResourcePath) : String :=
  "/".intercalate path

/-- `DocumentKey`: a path with an even number of segments. -/
structure DocumentKey where
  path : ResourcePath
  isDocumentKey : path.length % 2 = 0
  deriving DecidableEq, Repr

/-- The `DocumentReference` constructor. -/
def documentReference (path : ResourcePath) : Except Crash DocumentKey :=
  if h : path.length % 2 = 0 then
    .ok ⟨path, h⟩
  else
    .error (.hardAssert ("Invalid document reference. Document references must " ++
      "have an even number of segments, but " ++ path.canonicalString ++
      " has " ++ toString path.length))

/-- `Firestore.firestore().collection(c).document(p)` for a top-level
collection `c`. -/
def document (collection documentPath : String) : Except Crash DocumentKey :=
  (ResourcePath.fromString documentPath).bind fun subPath =>
    documentReference (collection :: subPath)

/-- A rejected path ends the process in a failed assertion of the client. -/
theorem document_error {collection documentPath : String} {c : Crash}
    (h : document collection documentPath = .error c) :
    ∃ message, c = .hardAssert message := by
  unfold document ResourcePath.fromString at h
  split at h
  · cases h
    exact ⟨_, rfl⟩
  · simp only [Except.bind, documentReference] at h
    split at h
    · cases h
    · cases h
      exact ⟨_, rfl⟩

/-- The string is accepted as the path of a document of the collection. -/
def ValidDocumentPath (collection documentPath : String) : Prop :=
  ∃ ref, document collection documentPath = .ok ref

/-- A document ID: one nonempty segment. -/
structure IsDocumentID (name : String) : Prop where
  nonempty : name ≠ ""
  noSlash : '/' ∉ name.toList

instance (name : String) : Decidable (IsDocumentID name) :=
  decidable_of_iff (name ≠ "" ∧ '/' ∉ name.toList)
    ⟨fun h => ⟨h.1, h.2⟩, fun h => ⟨h.nonempty, h.noSlash⟩⟩

/-- `clues/<name>`. -/
def clueKey (name : String) : DocumentKey := ⟨["clues", name], Nat.mod_self 2⟩

/-- `last-path/Last`. -/
def lastPathKey : DocumentKey := ⟨["last-path", "Last"], Nat.mod_self 2⟩

private theorem hasDoubleSlash_of_not_mem {l : List Char} (h : '/' ∉ l) :
    hasDoubleSlash l = false := by
  induction l with
  | nil => rfl
  | cons c rest ih =>
      obtain ⟨hc, hrest⟩ := List.ne_and_not_mem_of_not_mem_cons h
      unfold hasDoubleSlash
      split
      · next heq =>
          cases heq
          exact absurd rfl hc
      · next heq =>
          cases heq
          exact ih hrest
      · rfl

private theorem fromString_of_isDocumentID {name : String}
    (h : IsDocumentID name) : ResourcePath.fromString name = .ok [name] := by
  have hslash := hasDoubleSlash_of_not_mem h.noSlash
  have hsplit : name.toList.splitOn '/' = [name.toList] := by
    refine List.splitOn_eq_singleton ?_
    simpa using h.noSlash
  have hne : name.toList ≠ [] := by
    simpa using h.nonempty
  simp [ResourcePath.fromString, hslash, hsplit, hne]

/-- A document ID is its own one-segment path. -/
theorem document_of_isDocumentID {name : String} (h : IsDocumentID name)
    (collection : String) :
    document collection name = .ok ⟨[collection, name], Nat.mod_self 2⟩ := by
  rw [document, fromString_of_isDocumentID h]
  exact dif_pos (Nat.mod_self 2)

theorem document_clues {name : String} (h : IsDocumentID name) :
    document "clues" name = .ok (clueKey name) :=
  document_of_isDocumentID h "clues"

/-- The name of a bundled route is a document ID. -/
theorem isDocumentID_of_bundled {name : String} (h : Bundled name) :
    IsDocumentID name := by
  constructor
  · rintro rfl
    revert h
    decide
  · intro hslash
    have hfiles : ∀ file ∈ resourcesBuildPhase, '/' ∉ file.toList := by decide
    exact hfiles _ h (by simp [hslash])

theorem document_lastPath : document "last-path" "Last" = .ok lastPathKey := rfl

end ValentinesDay.Ports.Firestore
