import QueryCriteria.CriteriaSet
import QueryCriteria.EntityQuery.Draft
import QueryCriteria.Run
/-!
# Calls on drafts of entity queries

The calls that change a draft, and runs of them. A call that fails changes nothing, and a run goes
on with the draft as it was.
-/

namespace QueryCriteria.EntityQuery

/-- A call on a draft. -/
inductive Call where
  | add (c : Criterion)
  | addAll (cs : List Criterion)
  | addOrder (c : Criterion)
  | addOrders (cs : List Criterion)
  | addJoin (c : Criterion)
  | addJoins (cs : List Criterion)
  | apply (set : CriteriaSet)

namespace Draft

/-- Takes joins, restrictions and orders of a set, in that order, all or none. -/
def apply (d : Draft) (set : CriteriaSet) : Except Fault Draft := do
  let d ← d.addJoins set.joins
  let d ← d.addAll set.restrictions
  d.addOrders set.orders

/-- The outcome of a call. -/
def perform (d : Draft) : Call → Except Fault Draft
  | .add c => d.add c
  | .addAll cs => d.addAll cs
  | .addOrder c => d.addOrder c
  | .addOrders cs => d.addOrders cs
  | .addJoin c => d.addJoin c
  | .addJoins cs => d.addJoins cs
  | .apply set => d.apply set

/-- The draft after a call, as it was when the call fails. -/
def step (d : Draft) (call : Call) : Draft := after perform d call

/-- The draft after a run of calls. -/
def run (d : Draft) (calls : List Call) : Draft := calls.foldl (after perform) d

end Draft

end QueryCriteria.EntityQuery
