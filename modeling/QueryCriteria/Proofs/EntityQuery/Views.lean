import QueryCriteria.Proofs.EntityQuery.Draft
/-!
# Views of drafts of entity queries

What is seen of a draft, where it decides every call: which criteria the draft takes and what is
seen of it then. Runs from drafts that look alike have the same outcomes (`Suffices.run`). The open
groups and what the last fragment is make such a view (`suffices_place`).
-/

namespace QueryCriteria.EntityQuery.Draft

variable {d d' : Draft} {c : Criterion}

/-! ## Views -/

/-- What is seen of a draft decides which criteria it takes, and what is seen of it then. -/
structure Suffices {τ : Type} (g : Draft → τ) : Prop where
  add : ∀ d d' c, g d = g d' → (d.add c).map g = (d'.add c).map g
  addOrder : ∀ d d' c, g d = g d' → (d.addOrder c).map g = (d'.addOrder c).map g
  addJoin : ∀ d d' c, g d = g d' → (d.addJoin c).map g = (d'.addJoin c).map g

namespace Suffices

variable {τ : Type} {g : Draft → τ}

/-- It then decides every call. -/
theorem perform (hg : Suffices g) (call : Call) (h : g d = g d') :
    (d.perform call).map g = (d'.perform call).map g := by
  have hall {d d' : Draft} (cs : List Criterion) (h : g d = g d') :
      (d.addAll cs).map g = (d'.addAll cs).map g :=
    foldlM_of_seen (fun d d' c _ => hg.add d d' c) h
  have horders {d d' : Draft} (cs : List Criterion) (h : g d = g d') :
      (d.addOrders cs).map g = (d'.addOrders cs).map g :=
    foldlM_of_seen (fun d d' c _ => hg.addOrder d d' c) h
  have hjoins {d d' : Draft} (cs : List Criterion) (h : g d = g d') :
      (d.addJoins cs).map g = (d'.addJoins cs).map g :=
    foldlM_of_seen (fun d d' c _ => hg.addJoin d d' c) h
  cases call with
  | add c => exact hg.add d d' c h
  | addAll cs => exact hall cs h
  | addOrder c => exact hg.addOrder d d' c h
  | addOrders cs => exact horders cs h
  | addJoin c => exact hg.addJoin d d' c h
  | addJoins cs => exact hjoins cs h
  | apply set =>
    exact map_bind_of_seen (hjoins set.joins h) fun _ _ h =>
      map_bind_of_seen (hall set.restrictions h) fun _ _ h => horders set.orders h

/-- Runs from drafts that look alike have the same outcomes, and what they leave looks alike. -/
theorem run (hg : Suffices g) (calls : List Call) (h : g d = g d') :
    outcomes Draft.perform d calls = outcomes Draft.perform d' calls ∧
      g (d.run calls) = g (d'.run calls) :=
  outcomes_of_seen (fun _ _ call _ h => hg.perform call h) h

end Suffices

/-! ## The next place -/

/-- The number of open groups, and whether the last fragment opens one, if there is any. -/
def place (d : Draft) : Nat × Option Bool :=
  (d.openGroups, d.restrictions.getLast?.map fun f => decide (f = .opening))

theorem place_snd_eq_true : (place d).2 = some true ↔ d.restrictions.getLast? = some .opening := by
  simp [place]

/-- Whether a criterion has the connective that is due in a place. -/
def connects (c : Criterion) : Option Bool → Except Fault Unit
  | none => .ok ()
  | some true =>
    if Operator.isDefined c.logical then .error (.danglingLogical c.logical) else .ok ()
  | some false =>
    if Operator.isDefined c.logical then .ok ()
    else .error (.missingLogical (c.operand.getD "("))

theorem map_connective (d : Draft) (c : Criterion) :
    (d.connective c).map (fun _ => ()) = connects c (place d).2 := by
  unfold connective place
  cases d.restrictions.getLast? with
  | none => rfl
  | some f =>
    unfold connects
    cases f <;> cases c.logical <;> rfl

/-- The place decides which connectives may be there. -/
theorem connective_of_place (h : place d = place d') (c : Criterion) :
    (d.connective c).map (fun _ => ()) = (d'.connective c).map (fun _ => ()) := by
  rw [map_connective, map_connective, h]

/-- Names and numbers do not decide whether there is a predicate. -/
theorem predicate_unnamed (d d' : Draft) (c : Criterion) :
    (d.predicate c).map (fun _ => ()) = (d'.predicate c).map (fun _ => ()) := by
  refine map_bind_of_seen (g := id) rfl fun operand operand' h => ?_
  obtain rfl : operand = operand' := h
  dsimp only
  cases c.comparison.shape with
  | binary | membership => exact map_bind_of_seen (g := id) rfl fun _ _ _ => rfl
  | unary => cases c.value <;> rfl
  | none => rfl

theorem addMarker_of_place (h : place d = place d') (c : Criterion) :
    (d.addMarker c).map place = (d'.addMarker c).map place := by
  have hopen : d.openGroups = d'.openGroups := congrArg Prod.fst h
  unfold addMarker
  cases c.enclosure with
  | undefined => rfl
  | opening =>
    refine map_bind_of_seen (connective_of_place h c) fun lead lead' _ => ?_
    exact congrArg Except.ok (by simp [place, hopen])
  | closing =>
    have hlast : d.restrictions.getLast? = some .opening ↔
        d'.restrictions.getLast? = some .opening := by
      rw [← place_snd_eq_true, h, place_snd_eq_true]
    simp only [checkClosing, hopen, hlast]
    split
    · rfl
    · rw [ok_bind, ok_bind]
      split
      · rfl
      · exact congrArg Except.ok (by simp [place])

theorem checkClosing_of_place (h : place d = place d') : d.checkClosing = d'.checkClosing := by
  have hopen : d.openGroups = d'.openGroups := congrArg Prod.fst h
  rw [checkClosing, checkClosing, hopen]

theorem addRestriction_of_place (h : place d = place d') (c : Criterion) :
    (d.addRestriction c).map place = (d'.addRestriction c).map place := by
  have hopen : d.openGroups = d'.openGroups := congrArg Prod.fst h
  unfold addRestriction
  -- Behind the checks, the last fragment is the predicate or the bracket that comes with it.
  cases c.enclosure with
  | closing =>
    simp only [if_true, checkClosing_of_place h]
    refine map_bind_of_seen (g := id) rfl fun _ _ _ => ?_
    refine map_bind_of_seen (connective_of_place h c) fun _ _ _ => ?_
    refine map_bind_of_seen (predicate_unnamed d d' c) fun _ _ _ => congrArg Except.ok ?_
    simp [place, hopen]
  | _ =>
    simp only [reduceCtorEq, if_false]
    refine map_bind_of_seen (connective_of_place h c) fun _ _ _ => ?_
    refine map_bind_of_seen (predicate_unnamed d d' c) fun _ _ _ => congrArg Except.ok ?_
    simp [place, hopen]

/-- The place decides which criteria are taken, and the place behind them. -/
theorem suffices_place : Suffices place where
  add d d' c h := by
    unfold add
    refine map_bind_of_seen (g := id) rfl fun role role' hrole => ?_
    obtain rfl : role = role' := hrole
    cases role with
    | restriction =>
      exact map_bind_of_seen (addRestriction_of_place h c) fun _ _ h => congrArg Except.ok h
    | enclosure =>
      exact map_bind_of_seen (addMarker_of_place h c) fun _ _ h => congrArg Except.ok h
    | join | order => rfl
  addOrder d d' c h := by
    unfold addOrder
    refine map_bind_of_seen (g := id) rfl fun role role' hrole => ?_
    obtain rfl : role = role' := hrole
    cases role with
    | order => exact map_bind_of_seen (g := id) rfl fun _ _ _ => congrArg Except.ok h
    | _ => rfl
  addJoin d d' c h := by
    have hpush (d : Draft) (clause : JoinClause) : place (d.pushJoin clause c) = place d := by
      obtain ⟨joins, joinCriteria, heq⟩ := pushJoin_eq d clause c
      rw [heq]
      rfl
    unfold addJoin
    refine map_bind_of_seen (g := id) rfl fun role role' hrole => ?_
    obtain rfl : role = role' := hrole
    cases role with
    | join =>
      refine map_bind_of_seen (g := id) rfl fun operand operand' _ => congrArg Except.ok ?_
      rw [hpush, hpush, h]
    | _ => rfl

/-- So it decides whether a draft compiles. -/
theorem compile_of_place (h : place d = place d') :
    (∃ query, d.compile = .ok query) ↔ ∃ query, d'.compile = .ok query := by
  have hopen : d.openGroups = d'.openGroups := congrArg Prod.fst h
  unfold compile
  rw [hopen]
  split <;> simp

end QueryCriteria.EntityQuery.Draft
