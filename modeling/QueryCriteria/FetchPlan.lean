import QueryCriteria.Schema
/-!
# Fetch plans

Which relations a query fetches along with its root entity. The relations of the root are always
planned; a relation of a deeper entity is planned when its target has not been visited. The walk is
depth first in order of declaration and ends on every schema, since entering an entity marks it as
visited.
-/

namespace QueryCriteria

/-- A relation to fetch, by its dotted path from the root, which has `depth` steps. -/
structure PlannedFetch where
  path : String
  cardinality : Cardinality
  depth : Nat
deriving Repr, DecidableEq

namespace FetchPlan

/-- A relation that the walk has yet to look at: `lead` is the path to its entity with a dot behind
it, and empty at the root. -/
structure Pending where
  lead : String
  depth : Nat
  relation : Relation
deriving Repr, DecidableEq

/-- The path of a pending relation. -/
def Pending.path (p : Pending) : String := p.lead ++ p.relation.name

/-- The simple name of the entity that a pending relation leads to. -/
def Pending.target (p : Pending) : String := simpleName p.relation.target

/-- A pending relation as part of the plan. -/
def Pending.planned (p : Pending) : PlannedFetch := ⟨p.path, p.relation.cardinality, p.depth⟩

/-- The relations of an entity at a depth, none when that is beyond the limit. -/
def relationsAt (maxDepth : Nat) (e : Entity) (lead : String) (depth : Nat) : List Pending :=
  if maxDepth < depth then [] else e.relations.map fun r => ⟨lead, depth, r⟩

/-- The relations behind a pending one. The count of steps stops at 255, so a limit of 255 is
none. -/
def Pending.onward (maxDepth : Nat) (p : Pending) (e : Entity) : List Pending :=
  relationsAt maxDepth e (p.path ++ ".") (min (p.depth + 1) 255)

/-- How many registered entities have not been visited. -/
def unvisited (schema : Schema) (visited : List String) : Nat :=
  schema.entities.keys.countP (· ∉ visited)

theorem countP_notMem_cons_le (names visited : List String) (name : String) :
    names.countP (· ∉ name :: visited) ≤ names.countP (· ∉ visited) :=
  List.countP_mono_left fun n _ => by
    simp only [List.mem_cons, not_or, decide_eq_true_eq]
    exact And.right

/-- Visiting a registered entity for the first time leaves fewer to visit. -/
theorem countP_notMem_cons_lt {names visited : List String} {name : String} (hmem : name ∈ names)
    (hnew : name ∉ visited) :
    names.countP (· ∉ name :: visited) < names.countP (· ∉ visited) := by
  induction names with
  | nil => cases hmem
  | cons n names ih =>
    have hle := countP_notMem_cons_le names visited name
    by_cases h : n = name
    · subst h
      simpa [hnew] using Nat.lt_succ_of_le hle
    · have hlt := ih ((List.mem_cons.1 hmem).resolve_left fun e => h e.symm)
      have hn : n ∈ name :: visited ↔ n ∈ visited := by simp [h]
      simp only [List.countP_cons, hn]
      exact Nat.add_lt_add_right hlt _

/-- Walks the pending relations in order and keeps those to fetch. What lies behind a relation is
walked before what comes after it. -/
def walk (schema : Schema) (maxDepth : Nat) (visited : List String) :
    List Pending → List Pending
  | [] => []
  | p :: rest =>
    if p.target ∈ visited then
      if 1 < p.depth then walk schema maxDepth visited rest
      else p :: walk schema maxDepth visited rest
    else
      p ::
        match _hfound : schema.entity? p.relation.target with
        | some e => walk schema maxDepth (p.target :: visited) (p.onward maxDepth e ++ rest)
        | none => walk schema maxDepth (p.target :: visited) rest
termination_by pending => (unvisited schema visited, pending.length)
decreasing_by
  · exact .right _ (by simp)
  · exact .right _ (by simp)
  · next hnew =>
    exact .left _ _ (countP_notMem_cons_lt (OrderedMap.mem_keys_of_get? _hfound) hnew)
  · have hle := countP_notMem_cons_le schema.entities.keys visited p.target
    rcases Nat.lt_or_eq_of_le hle with h | h
    · exact .left _ _ h
    · simp only [unvisited, h]
      exact .right _ (by simp)

/-- The relations to fetch with a root entity, at most `maxDepth` steps away. -/
def relations (schema : Schema) (root : Entity) (maxDepth : UInt8) : List Pending :=
  walk schema maxDepth.toNat [root.simpleName] (relationsAt maxDepth.toNat root "" 1)

end FetchPlan

/-- The plan to fetch relations with a root entity, at most `maxDepth` steps away. -/
def fetchPlan (schema : Schema) (root : Entity) (maxDepth : UInt8) : List PlannedFetch :=
  (FetchPlan.relations schema root maxDepth).map FetchPlan.Pending.planned

end QueryCriteria
