import QueryCriteria.EntityQuery.Draft
import QueryCriteria.FetchPlan
import QueryCriteria.Settings
/-!
# Fetching related entities

How a new draft fetches what its fetch plan holds. With joins, a planned path that others continue
is joined under a name of its own, and those are joined from that name, so no join goes through
more than one relation. With hints, the text of the query stays as it is.
-/

namespace QueryCriteria.EntityQuery

/-- A dotted path split at its last dot; a path of one step has no parent. -/
def splitPath (path : String) : Option (String × String) :=
  let reversed := path.toList.reverse
  match reversed.dropWhile (· != '.') with
  | [] => none
  | _ :: parent =>
    some (String.ofList parent.reverse, String.ofList (reversed.takeWhile (· != '.')).reverse)

/-- The paths that planned fetches continue. -/
def parentPaths (planned : List PlannedFetch) : List String :=
  planned.filterMap fun fetch => (splitPath fetch.path).map (·.1)

/-- Where a planned path is joined from, and by what relation: from the name its parent was joined
under, or from the root by the whole path when it has no such parent. -/
def joinSource (names : OrderedMap String) (path : String) : Option String × String :=
  match splitPath path with
  | some (parent, relation) =>
    match names.get? parent with
    | some owner => (some owner, relation)
    | none => (none, path)
  | none => (none, path)

/-- The joins of planned fetches, given the paths that are continued and the names given so far. A
name is its relation's with the number of names behind it. -/
def fetchClauses (parents : List String) :
    OrderedMap String → List PlannedFetch → List (JoinClause × Criterion)
  | _, [] => []
  | names, fetch :: rest =>
    let (owner, relation) := joinSource names fetch.path
    let aliasName :=
      if fetch.path ∈ parents then some (relation ++ toString (names.size + 1)) else none
    let names := aliasName.elim names fun name => names.insert fetch.path name
    (⟨.leftFetch, owner, relation, aliasName⟩, Criterion.joining fetch.path .leftFetch) ::
      fetchClauses parents names rest

/-- The hint for a relation of a cardinality. -/
def FetchHint.ofCardinality : Cardinality → FetchHint
  | .many => .batchFetch
  | .one => .leftFetch

namespace Draft

/-- Joins every planned path. -/
def pushFetchJoins (d : Draft) (planned : List PlannedFetch) : Draft :=
  (fetchClauses (parentPaths planned) .empty planned).foldl
    (fun d (clause, criterion) => d.pushJoin clause criterion) d

/-- Gives a hint for every planned path. -/
def pushFetchHints (d : Draft) (planned : List PlannedFetch) : Draft :=
  { d with
    hints := planned.foldl (fun hints fetch => hints.insert (d.rootAlias ++ "." ++ fetch.path)
      (.ofCardinality fetch.cardinality)) d.hints }

/-- Fetches related entities by the strategy of the settings. -/
def autoFetch (d : Draft) (schema : Schema) (root : Entity) (settings : Settings) : Draft :=
  match settings.strategy with
  | .joinFetch => d.pushFetchJoins (fetchPlan schema root settings.maxDepth)
  | .fetchHints => d.pushFetchHints (fetchPlan schema root settings.maxDepth)
  | .disabled => d

/-- A new draft for an entity of a schema. -/
def create (entity : String) (schema : Schema) (settings : Settings) : Except Fault Draft :=
  if Text.isBlank entity then .error .missingEntity
  else match schema.entity? entity with
    | none => .error (.unknownEntity entity)
    | some root => .ok ((start root.simpleName root.aliasName).autoFetch schema root settings)

end Draft

end QueryCriteria.EntityQuery
