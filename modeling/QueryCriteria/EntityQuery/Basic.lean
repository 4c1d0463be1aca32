import QueryCriteria.EntityQuery.Clause
import QueryCriteria.EntityQuery.Parameters
import QueryCriteria.Value.Json
/-!
# Entity queries

A compiled query: its text, the values bound to its parameters, and hints for whoever runs it.
-/

namespace QueryCriteria

/-- A compiled entity query. -/
structure EntityQuery where
  text : String
  parameters : EntityQuery.Parameters
  hints : OrderedMap EntityQuery.FetchHint

namespace EntityQuery

/-- The JSON tree of parameters. -/
def Parameters.toJson (p : Parameters) : Json :=
  .object (p.toList.map fun (name, value) => (name, value.toJson))

/-- The JSON tree of hints, unless there are none. -/
def hintsToJson? (hints : OrderedMap FetchHint) : Option Json :=
  if hints.isEmpty then none
  else some (.object (hints.entries.map fun (name, hint) => (name, .string hint.word)))

/-- The JSON tree of a query. -/
def toJson (q : EntityQuery) : Json :=
  .present [
    ("ql", some (.string q.text)),
    ("parameters", some q.parameters.toJson),
    ("hints", hintsToJson? q.hints)]

end EntityQuery

end QueryCriteria
