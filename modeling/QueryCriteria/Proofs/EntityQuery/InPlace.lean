import QueryCriteria.EntityQuery.Call
import QueryCriteria.Proofs.Mutation
/-!
# Calls on a draft of an entity query, in place

A draft is changed field by field. A single call writes nothing before its last check, and a batch
works on a copy, so that every call is atomic (`perform_eq`).
-/

namespace QueryCriteria.EntityQuery.InPlace

open Mutation

/-! ## One criterion -/

def write (more : List Fragment) : Mutation Draft Unit :=
  modify fun d => { d with restrictions := d.restrictions ++ more }

def openGroup : Mutation Draft Unit := do
  write [.opening]
  modify fun d => { d with openGroups := d.openGroups + 1 }

def closeGroup : Mutation Draft Unit := do
  write [.closing]
  modify fun d => { d with openGroups := d.openGroups - 1 }

def addMarker (c : Criterion) : Mutation Draft Unit := do
  match c.enclosure with
  | .opening =>
    let connective ← check fun d => d.connective c
    write connective
    openGroup
  | .closing =>
    check Draft.checkClosing
    if (← get).restrictions.getLast? = some .opening then throw .emptyGroup
    closeGroup
  | .undefined => throw .undirectedMarker

def addRestriction (c : Criterion) : Mutation Draft Unit := do
  if c.enclosure = .closing then check Draft.checkClosing
  let connective ← check fun d => d.connective c
  let (predicate, value) ← check fun d => d.predicate c
  write connective
  if c.enclosure = .opening then openGroup
  write [.predicate predicate]
  match value with
  | some value => modify fun d => { d with parameters := d.parameters.bind value }
  | none => pure ()
  if c.enclosure = .closing then closeGroup

def add (c : Criterion) : Mutation Draft Unit := do
  match ← check fun _ => c.role with
  | .restriction => addRestriction c
  | .enclosure => addMarker c
  | .join => throw .misplacedJoin
  | .order => throw .misplacedOrder
  modify fun d => { d with restrictionCriteria := d.restrictionCriteria ++ [c] }

def addOrder (c : Criterion) : Mutation Draft Unit := do
  match ← check fun _ => c.role with
  | .order =>
    let operand ← check fun _ => c.requireOperand "order"
    modify fun d => { d with orders := d.orders ++ [⟨operand, c.order⟩] }
    modify fun d => { d with orderCriteria := d.orderCriteria ++ [c] }
  | _ => throw .notAnOrder

def pushJoin (clause : JoinClause) (c : Criterion) : Mutation Draft Unit := do
  if (← get).joins.any (·.sameTarget clause) then return
  modify fun d => { d with joins := d.joins ++ [clause] }
  modify fun d => { d with joinCriteria := d.joinCriteria ++ [c] }

def addJoin (c : Criterion) : Mutation Draft Unit := do
  match ← check fun _ => c.role with
  | .join =>
    let operand ← check fun _ => c.requireOperand "join"
    pushJoin ⟨c.join, none, operand, none⟩ c
  | _ => throw .notAJoin

theorem addMarker_eq (c : Criterion) : addMarker c = atomically fun d => d.addMarker c := by
  funext d
  unfold addMarker Draft.addMarker atomically
  cases c.enclosure with
  | opening =>
    simp only [check_bind]
    cases d.connective c <;> rfl
  | closing =>
    simp only [check_bind]
    cases d.checkClosing with
    | error fault => rfl
    | ok _ =>
      dsimp only [ok_bind]
      rw [get_bind]
      split <;> rfl
  | undefined => rfl

theorem addRestriction_eq (c : Criterion) :
    addRestriction c = atomically fun d => d.addRestriction c := by
  funext d
  have hwrite (fs : List Fragment) (f g : Fragment) : fs ++ [f, g] = fs ++ [f] ++ [g] := by simp
  unfold addRestriction Draft.addRestriction atomically
  -- Each check that fails ends the call before it writes; past the last one there are only writes.
  cases c.enclosure <;> simp only [reduceCtorEq, if_true, if_false, check_bind, hwrite] <;>
    cases d.checkClosing <;> cases d.connective c <;>
    rcases d.predicate c with fault | ⟨p, _ | value⟩ <;> rfl

theorem add_eq (c : Criterion) : add c = atomically fun d => d.add c := by
  funext d
  unfold add Draft.add
  rw [check_bind, atomically]
  cases c.role with
  | error fault => rfl
  | ok role =>
    cases role with
    | restriction =>
      simp only [addRestriction_eq, atomically_bind]
      cases d.addRestriction c <;> rfl
    | enclosure =>
      simp only [addMarker_eq, atomically_bind]
      cases d.addMarker c <;> rfl
    | join => rfl
    | order => rfl

theorem addOrder_eq (c : Criterion) : addOrder c = atomically fun d => d.addOrder c := by
  funext d
  unfold addOrder Draft.addOrder atomically
  simp only [check_bind]
  cases c.role with
  | error fault => rfl
  | ok role =>
    cases role with
    | order =>
      simp only [check_bind]
      cases c.requireOperand "order" <;> rfl
    | _ => rfl

theorem pushJoin_eq (clause : JoinClause) (c : Criterion) (d : Draft) :
    pushJoin clause c d = .ok () (d.pushJoin clause c) := by
  unfold pushJoin Draft.pushJoin
  rw [get_bind]
  split <;> rfl

theorem addJoin_eq (c : Criterion) : addJoin c = atomically fun d => d.addJoin c := by
  funext d
  unfold addJoin Draft.addJoin atomically
  simp only [check_bind]
  cases c.role with
  | error fault => rfl
  | ok role =>
    cases role with
    | join =>
      simp only [check_bind, pushJoin_eq]
      cases c.requireOperand "join" <;> rfl
    | _ => rfl

/-! ## Batches -/

def addAll (cs : List Criterion) : Mutation Draft Unit := staged (forM cs add)

def addOrders (cs : List Criterion) : Mutation Draft Unit := staged (forM cs addOrder)

def addJoins (cs : List Criterion) : Mutation Draft Unit := staged (forM cs addJoin)

/-- Takes a set on a copy, whose batches work on copies of it. -/
def apply (set : CriteriaSet) : Mutation Draft Unit := staged do
  addJoins set.joins
  addAll set.restrictions
  addOrders set.orders

def perform : Call → Mutation Draft Unit
  | .add c => add c
  | .addAll cs => addAll cs
  | .addOrder c => addOrder c
  | .addOrders cs => addOrders cs
  | .addJoin c => addJoin c
  | .addJoins cs => addJoins cs
  | .apply set => apply set

theorem addAll_eq (cs : List Criterion) : addAll cs = atomically fun d => d.addAll cs :=
  staged_forM add_eq cs

theorem addOrders_eq (cs : List Criterion) : addOrders cs = atomically fun d => d.addOrders cs :=
  staged_forM addOrder_eq cs

theorem addJoins_eq (cs : List Criterion) : addJoins cs = atomically fun d => d.addJoins cs :=
  staged_forM addJoin_eq cs

theorem apply_eq (set : CriteriaSet) : apply set = atomically fun d => d.apply set := by
  rw [apply, staged_eq]
  congr 1
  funext d
  rw [outcome_bind, addJoins_eq, outcome_atomically, Draft.apply]
  congr 1
  funext d
  rw [outcome_bind, addAll_eq, outcome_atomically, addOrders_eq, outcome_atomically]

/-- A call in place succeeds with the draft that the call gives, or fails as it does and leaves the
draft as it was. -/
theorem perform_eq (call : Call) : perform call = atomically fun d => d.perform call := by
  cases call with
  | add c => exact add_eq c
  | addAll cs => exact addAll_eq cs
  | addOrder c => exact addOrder_eq c
  | addOrders cs => exact addOrders_eq cs
  | addJoin c => exact addJoin_eq c
  | addJoins cs => exact addJoins_eq cs
  | apply set => exact apply_eq set

end QueryCriteria.EntityQuery.InPlace
