import QueryCriteria.Proofs.Blanking
import QueryCriteria.Proofs.EntityQuery.Draft
/-!
# Values in drafts of entity queries

A draft does not look at the values it takes. Blanking them carries every call along
(`perform_blanked`), and leaves all that is seen of the query (`sameQuery_of_blanked`).
-/

namespace QueryCriteria.EntityQuery

/-- The call with the values of its criteria blanked. -/
def Call.blanked : Call → Call
  | .add c => .add c.blanked
  | .addAll cs => .addAll (cs.map .blanked)
  | .addOrder c => .addOrder c.blanked
  | .addOrders cs => .addOrders (cs.map .blanked)
  | .addJoin c => .addJoin c.blanked
  | .addJoins cs => .addJoins (cs.map .blanked)
  | .apply set => .apply set.blanked

namespace Draft

/-- The draft with all values blanked, those it binds and those of the criteria it records. -/
def blanked (d : Draft) : Draft :=
  { d with
    parameters := d.parameters.blanked
    restrictionCriteria := d.restrictionCriteria.map .blanked
    orderCriteria := d.orderCriteria.map .blanked
    joinCriteria := d.joinCriteria.map .blanked }

/-! ## One criterion -/

theorem predicate_blanked (d : Draft) (c : Criterion) :
    d.blanked.predicate c.blanked =
      (d.predicate c).map fun p => (p.1, p.2.map fun _ => .blank) := by
  have hname : d.blanked.parameters.nextName = d.parameters.nextName :=
    d.parameters.nextName_blanked
  have hsome : c.blanked.value.isSome = c.value.isSome := Option.isSome_map
  unfold predicate
  rw [Criterion.requireOperand_blanked, hname, hsome]
  cases c.requireOperand "restriction" with
  | error fault => rfl
  | ok operand =>
    have hshape : c.blanked.comparison.shape = c.comparison.shape := rfl
    simp only [ok_bind, Criterion.requireValue_blanked, hshape]
    cases c.comparison.shape with
    | binary | membership => cases c.requireValue operand <;> rfl
    | unary => cases c.value.isSome <;> rfl
    | none => rfl

theorem carries_blanked : Carries blanked .blanked fun _ => .blank where
  role _ := rfl
  enclosure _ := rfl
  restrictions _ := rfl
  openGroups _ := rfl
  connective _ _ := rfl
  predicate := predicate_blanked
  taken d c restrictions value openGroups := by
    cases value with
    | none => simp [blanked]
    | some value => simp [blanked, Parameters.bind_blanked]

theorem addOrder_blanked (d : Draft) (c : Criterion) :
    d.blanked.addOrder c.blanked = (d.addOrder c).map blanked := by
  refine addOrder_map (Criterion.role_blanked c) (Criterion.requireOperand_blanked c)
    fun operand => ?_
  simp [blanked, Criterion.blanked]

theorem addJoin_blanked (d : Draft) (c : Criterion) :
    d.blanked.addJoin c.blanked = (d.addJoin c).map blanked := by
  refine addJoin_map (Criterion.role_blanked c) (Criterion.requireOperand_blanked c)
    fun operand => ?_
  unfold pushJoin
  rw [apply_ite blanked]
  simp [blanked, Criterion.blanked]

/-! ## Calls -/

/-- What becomes of a call does not depend on values, and the values it puts into the draft are
those of its criteria. -/
theorem perform_blanked (d : Draft) (call : Call) :
    d.blanked.perform call.blanked = (d.perform call).map blanked := by
  have hall (d : Draft) (cs : List Criterion) :
      d.blanked.addAll (cs.map .blanked) = (d.addAll cs).map blanked :=
    foldlM_map (fun d c _ => carries_blanked.add d c) d
  have horders (d : Draft) (cs : List Criterion) :
      d.blanked.addOrders (cs.map .blanked) = (d.addOrders cs).map blanked :=
    foldlM_map (fun d c _ => addOrder_blanked d c) d
  have hjoins (d : Draft) (cs : List Criterion) :
      d.blanked.addJoins (cs.map .blanked) = (d.addJoins cs).map blanked :=
    foldlM_map (fun d c _ => addJoin_blanked d c) d
  cases call with
  | add c => exact carries_blanked.add d c
  | addAll cs => exact hall d cs
  | addOrder c => exact addOrder_blanked d c
  | addOrders cs => exact horders d cs
  | addJoin c => exact addJoin_blanked d c
  | addJoins cs => exact hjoins d cs
  | apply set =>
    simp only [perform, Call.blanked, CriteriaSet.blanked, apply, hjoins]
    cases d.addJoins set.joins with
    | error fault => rfl
    | ok d =>
      simp only [Except.map, ok_bind, hall]
      cases d.addAll set.restrictions with
      | error fault => rfl
      | ok d => exact horders d set.orders

/-! ## What is seen of a draft -/

/-- The two drafts look alike, apart from the values they bind. -/
structure SameQuery (d d' : Draft) : Prop where
  text : d.text = d'.text
  hints : d.hints = d'.hints
  nextName : d.parameters.nextName = d'.parameters.nextName
  names : d.parameters.bindings.keys = d'.parameters.bindings.keys
  isDistinct : d.isDistinct = d'.isDistinct
  hasRestrictions : d.hasRestrictions = d'.hasRestrictions
  hasOrders : d.hasOrders = d'.hasOrders
  hasJoins : d.hasJoins = d'.hasJoins

theorem sameQuery_of_blanked {d d' : Draft} (h : d.blanked = d'.blanked) : SameQuery d d' := by
  have htext := congrArg text h
  have hhints := congrArg hints h
  have hparameters : d.parameters.blanked = d'.parameters.blanked := congrArg parameters h
  have hdistinct := congrArg isDistinct h
  have hrestrictions := congrArg restrictionCriteria h
  have horders := congrArg orderCriteria h
  have hjoins := congrArg joinCriteria h
  constructor
  · exact htext
  · exact hhints
  · rw [← Parameters.nextName_blanked, hparameters, Parameters.nextName_blanked]
  · have hkeys := congrArg (fun p => p.bindings.keys) hparameters
    simpa only [Parameters.blanked, OrderedMap.keys_mapValues] using hkeys
  · exact hdistinct
  · have := congrArg List.isEmpty hrestrictions
    simpa [blanked, hasRestrictions] using this
  · have := congrArg List.isEmpty horders
    simpa [blanked, hasOrders] using this
  · have := congrArg List.isEmpty hjoins
    simpa [blanked, hasJoins] using this

/-- Calls that differ in values only have the same outcomes, and the drafts they leave differ in
values only. -/
theorem outcomes_of_blanked {d : Draft} {calls calls' : List Call}
    (h : calls.map Call.blanked = calls'.map Call.blanked) :
    outcomes perform d calls = outcomes perform d calls' ∧
      (d.run calls).blanked = (d.run calls').blanked :=
  outcomes_of_map_eq (fun d call _ => perform_blanked d call)
    (fun d call _ => perform_blanked d call) h d

end Draft

end QueryCriteria.EntityQuery
