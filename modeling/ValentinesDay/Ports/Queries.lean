import ValentinesDay.Ports.Mutations

/-!
# Queries of the Firestore client

A query is of one document, or of a collection with equality filters, explicit
orders and a limit; bounds, inequalities and collection groups, which no query of
the app has, are left out.
-/

namespace ValentinesDay.Ports.Queries

open ValentinesDay.Ports.Firestore
open ValentinesDay.Ports.Mutations

/-- A `FieldPath` of an order: the path that stands for the document's key, or a
field. -/
inductive FieldPath where
  | keyFieldPath
  | field (name : String)
  deriving DecidableEq, Repr

/-- `FieldPath::IsKeyFieldPath`. -/
def FieldPath.isKeyFieldPath : FieldPath → Bool
  | .keyFieldPath => true
  | .field _ => false

/-- `OrderBy`. -/
structure OrderBy where
  field : FieldPath
  descending : Bool
  deriving DecidableEq, Repr

/-- A filter of the operator `Equal`: `FieldFilter`, or `KeyFieldFilter` for the
document's key. -/
inductive Filter where
  | fieldFilter (field : String) (value : Value)
  | keyFieldFilter (key : DocumentKey)
  deriving DecidableEq

/-- `Filter::Matches`. -/
def Filter.matchesDoc (key : DocumentKey) (data : ObjectValue) : Filter → Bool
  | .fieldFilter field value => data.lookup field = some value
  | .keyFieldFilter value => key = value

/-- `LimitType`, without `None`. -/
inductive LimitType where
  | first
  | last
  deriving DecidableEq, Repr

/-- `limit_type` and `limit` of a query that has one. -/
structure Limit where
  type : LimitType
  count : Nat
  deriving DecidableEq, Repr

/-- `Query`. -/
structure Query where
  path : ResourcePath
  filters : List Filter
  explicitOrderBys : List OrderBy
  limit : Option Limit
  deriving DecidableEq

/-- `IsImmediateParentOf`. -/
def isImmediateParentOf (path potentialChild : ResourcePath) : Bool :=
  path.length + 1 = potentialChild.length && path.isPrefixOf potentialChild

theorem isImmediateParentOf_iff {path child : ResourcePath} :
    isImmediateParentOf path child ↔
      path <+: child ∧ child.length = path.length + 1 := by
  simp only [isImmediateParentOf, Bool.and_eq_true, decide_eq_true_eq,
    List.isPrefixOf_iff_prefix]
  exact ⟨fun h => ⟨h.2, h.1.symm⟩, fun h => ⟨h.2.symm, h.1⟩⟩

namespace Query

variable (query : Query)

/-- `IsDocumentQuery`. -/
def isDocumentQuery : Bool := query.path.length % 2 = 0 && query.filters = []

/-- `MatchesAllDocuments`. -/
def matchesAllDocuments : Bool :=
  query.filters = [] && query.limit = none &&
    (query.explicitOrderBys = [] ||
      query.explicitOrderBys.length = 1 &&
        query.explicitOrderBys.all fun orderBy => orderBy.field.isKeyFieldPath)

/-- `order_bys`: the order by key is added if there is none. -/
def orderBys : List OrderBy :=
  if query.explicitOrderBys.any fun orderBy => orderBy.field.isKeyFieldPath then
    query.explicitOrderBys
  else
    query.explicitOrderBys ++
      [⟨.keyFieldPath, query.explicitOrderBys.getLast?.elim false (·.descending)⟩]

/-- `MatchesPathAndCollectionGroup`. -/
def matchesPath (key : DocumentKey) : Bool :=
  if query.path.length % 2 = 0 then query.path = key.path
  else isImmediateParentOf query.path key.path

/-- `MatchesOrderBy`. -/
def matchesOrderBy (data : ObjectValue) : Bool :=
  query.explicitOrderBys.all fun orderBy =>
    match orderBy.field with
    | .keyFieldPath => true
    | .field name => (data.lookup name).isSome

/-- `MatchesFilters`. -/
def matchesFilters (key : DocumentKey) (data : ObjectValue) : Bool :=
  query.filters.all fun filter => filter.matchesDoc key data

/-- `Matches`, of an existing document. -/
def matchesDoc (key : DocumentKey) (data : ObjectValue) : Bool :=
  query.matchesPath key && query.matchesOrderBy data && query.matchesFilters key data

theorem even_of_isDocumentQuery {query : Query} (h : query.isDocumentQuery) :
    query.path.length % 2 = 0 := by
  simp only [isDocumentQuery, Bool.and_eq_true, decide_eq_true_eq] at h
  exact h.1

theorem path_of_matchesDoc {query : Query} {key : DocumentKey} {data : ObjectValue}
    (h : query.matchesDoc key data) : query.matchesPath key := by
  simp only [matchesDoc, Bool.and_eq_true] at h
  exact h.1.1

/-- The orders of a query tell any two documents apart. -/
theorem exists_key_order : ∃ orderBy ∈ query.orderBys, orderBy.field = .keyFieldPath := by
  unfold orderBys
  split
  · next hkey =>
    obtain ⟨orderBy, hmem, hfield⟩ := List.any_eq_true.mp hkey
    refine ⟨orderBy, hmem, ?_⟩
    cases hpath : orderBy.field with
    | keyFieldPath => rfl
    | field name =>
        rw [hpath] at hfield
        cases hfield
  · exact ⟨_, List.mem_append_right _ (List.mem_singleton_self _), rfl⟩

end Query

end ValentinesDay.Ports.Queries
