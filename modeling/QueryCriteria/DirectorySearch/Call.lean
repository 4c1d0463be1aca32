import QueryCriteria.CriteriaSet
import QueryCriteria.DirectorySearch.Draft
import QueryCriteria.Run
/-!
# Calls on drafts of directory searches

The calls that change a draft, and runs of them. A call that fails changes nothing, and a run goes
on with the draft as it was.
-/

namespace QueryCriteria.DirectorySearch

/-- A call on a draft. -/
inductive Call where
  | add (c : Criterion)
  | addAll (cs : List Criterion)
  | addOrder (c : Criterion)
  | addOrders (cs : List Criterion)
  | apply (set : CriteriaSet)

namespace Draft

/-- Takes the restrictions of a set, all or none. Joins are refused before and orders after the
restrictions are looked at. -/
def apply (d : Draft) (set : CriteriaSet) : Except Fault Draft :=
  if set.joins.isEmpty then do
    let d ← d.addAll set.restrictions
    if set.orders.isEmpty then .ok d else d.addOrders set.orders
  else .error .unsupportedJoin

/-- The outcome of a call. -/
def perform (d : Draft) : Call → Except Fault Draft
  | .add c => d.add c
  | .addAll cs => d.addAll cs
  | .addOrder c => d.addOrder c
  | .addOrders cs => d.addOrders cs
  | .apply set => d.apply set

/-- The draft after a call, as it was when the call fails. -/
def step (d : Draft) (call : Call) : Draft := after perform d call

/-- The draft after a run of calls. -/
def run (d : Draft) (calls : List Call) : Draft := calls.foldl (after perform) d

end Draft

end QueryCriteria.DirectorySearch
