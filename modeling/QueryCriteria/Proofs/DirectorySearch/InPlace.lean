import QueryCriteria.DirectorySearch.Call
import QueryCriteria.Proofs.Mutation
/-!
# Calls on a draft of a directory search, in place

Groups are changed as a criterion goes along: a leaf is attached before its group is closed, and a
group is taken off the stack before it is known whether it can be attached. Only a copy of the
stack is changed so, and every call is atomic (`perform_eq`).
-/

namespace QueryCriteria.DirectorySearch.InPlace

open Mutation

/-! ## Groups -/

def attach (logical : Logical) (member : Filter) : Mutation (List Frame) Unit := do
  match ← get with
  | [] => throw .noRootGroup
  | frame :: outer =>
    let connective ← check fun _ => frame.connective? logical
    let filter := match frame.filter, connective with
      | some current, some connective => current.wrap connective member
      | _, _ => member
    set ({ frame with filter := some filter, seeded := false } :: outer)

/-- Takes the innermost open group off the stack and attaches it to the one it stood in. -/
def close : Mutation (List Frame) Unit := do
  match ← get with
  | [] => throw .unmatchedClosing
  | frame :: outer =>
    if outer.isEmpty then throw .unmatchedClosing
    set outer
    match frame.filter with
    | none => throw .emptyGroup
    | some filter => attach frame.logical filter

def place (c : Criterion) (leaf : Option Filter) : Mutation (List Frame) Unit := do
  match c.enclosure with
  | .opening =>
    check fun frames => Draft.checkAttachable frames c.logical
    modify fun frames => ⟨c.logical, leaf, false⟩ :: frames
  | .closing =>
    match leaf with
    | some leaf => attach c.logical leaf
    | none => pure ()
    close
  | .undefined =>
    match leaf with
    | some leaf => attach c.logical leaf
    | none => throw .undirectedMarker

theorem outcome_attach (logical : Logical) (member : Filter) :
    (attach logical member).outcome = fun frames => Draft.attach frames logical member := by
  funext frames
  unfold attach outcome Draft.attach
  rw [get_bind]
  cases frames with
  | nil => rfl
  | cons frame outer =>
    simp only [check_bind, Frame.attach]
    cases frame.connective? logical <;> rfl

theorem outcome_close : close.outcome = Draft.close := by
  funext frames
  unfold close outcome Draft.close
  rw [get_bind]
  cases frames with
  | nil => rfl
  | cons frame outer =>
    obtain ⟨logical, filter, seeded⟩ := frame
    cases outer with
    | nil => rfl
    | cons next outer =>
      cases filter with
      | none => rfl
      | some filter => exact congrFun (outcome_attach logical filter) (next :: outer)

/-- A group that turns out to be empty is gone when its closing fails. -/
example (root : Frame) :
    close [⟨.and, none, false⟩, root] = .error .emptyGroup [root] := rfl

theorem outcome_place (c : Criterion) (leaf : Option Filter) :
    (place c leaf).outcome = fun frames => Draft.place frames c leaf := by
  funext frames
  unfold place Draft.place
  cases c.enclosure with
  | opening =>
    unfold outcome
    simp only [check_bind]
    cases Draft.checkAttachable frames c.logical <;> rfl
  | closing =>
    cases leaf with
    | none => exact congrFun outcome_close frames
    | some leaf => simp only [outcome_bind, outcome_attach, outcome_close]
  | undefined =>
    cases leaf with
    | none => rfl
    | some leaf => simp only [outcome_attach]

/-! ## Calls -/

/-- Adds a restriction or a bracket, with its place found in a copy of the stack. -/
def add (c : Criterion) : Mutation Draft Unit := do
  let leaf ← check fun d => d.leaf? c
  let frames ← check fun d => (place c leaf).outcome d.frames
  modify fun d => { d with frames }
  modify fun d => { d with restrictionCriteria := d.restrictionCriteria ++ [c] }

def addAll (cs : List Criterion) : Mutation Draft Unit := staged (forM cs add)

/-- Takes the restrictions of a set, on a copy, once there are no joins; orders are refused. -/
def apply (set : CriteriaSet) : Mutation Draft Unit := do
  if !set.joins.isEmpty then throw .unsupportedJoin
  staged do
    addAll set.restrictions
    if !set.orders.isEmpty then throw .unsupportedOrder

def perform : Call → Mutation Draft Unit
  | .add c => add c
  | .addAll cs => addAll cs
  | .addOrder _ | .addOrders _ => throw .unsupportedOrder
  | .apply set => apply set

theorem add_eq (c : Criterion) : add c = atomically fun d => d.add c := by
  funext d
  unfold add Draft.add atomically
  simp only [check_bind, outcome_place]
  cases d.leaf? c with
  | error fault => rfl
  | ok leaf =>
    simp only [ok_bind]
    cases Draft.place d.frames c leaf <;> rfl

theorem addAll_eq (cs : List Criterion) : addAll cs = atomically fun d => d.addAll cs :=
  staged_forM add_eq cs

theorem apply_eq (set : CriteriaSet) : apply set = atomically fun d => d.apply set := by
  unfold apply Draft.apply
  cases set.joins.isEmpty with
  | false => rfl
  | true =>
    simp only [Bool.not_true, Bool.false_eq_true, if_false, if_true, staged_eq]
    congr 1
    funext d
    rw [outcome_bind, addAll_eq, outcome_atomically]
    congr 1
    funext d
    cases set.orders.isEmpty <;> rfl

/-- A call in place succeeds with the draft that the call gives, or fails as it does and leaves the
draft as it was. -/
theorem perform_eq (call : Call) : perform call = atomically fun d => d.perform call := by
  cases call with
  | add c => exact add_eq c
  | addAll cs => exact addAll_eq cs
  | addOrder c => rfl
  | addOrders cs => rfl
  | apply set => exact apply_eq set

end QueryCriteria.DirectorySearch.InPlace
