import QueryCriteria.Proofs.DirectorySearch.Draft
import QueryCriteria.Proofs.DirectorySearch.InPlace
import QueryCriteria.Proofs.EntityQuery.Draft
import QueryCriteria.Proofs.EntityQuery.InPlace
/-!
# Batches are atomic

A batch is the atomic form of its calls made one by one, and a set of criteria that of its three
batches. That a failure leaves no trace is said of calls in place: of single calls, which write
field by field, of batches, which work on a copy, and of sets, whose batches copy the copy.
-/

namespace QueryCriteria

open Mutation

namespace EntityQuery.Draft

/-- What a draft makes of calls, and of several criteria at once. -/
structure TakesAtomically (d : Draft) : Prop where
  /-- A call in place succeeds as the call does. -/
  inPlace : ∀ call d', d.perform call = .ok d' → InPlace.perform call d = .ok () d'
  /-- When it fails, it leaves the draft as it was. -/
  unchanged : ∀ call fault, d.perform call = .error fault →
    InPlace.perform call d = .error fault d
  addAll : ∀ cs, AtomicForm perform d (.addAll cs) (cs.map .add)
  addJoins : ∀ cs, AtomicForm perform d (.addJoins cs) (cs.map .addJoin)
  addOrders : ∀ cs, AtomicForm perform d (.addOrders cs) (cs.map .addOrder)
  apply : ∀ set : CriteriaSet, AtomicForm perform d (.apply set)
    [.addJoins set.joins, .addAll set.restrictions, .addOrders set.orders]

theorem takesAtomically (d : Draft) : TakesAtomically d where
  inPlace call d' h := by rw [InPlace.perform_eq, atomically, h]
  unchanged call fault h := by rw [InPlace.perform_eq, atomically, h]
  addAll cs := atomicForm_of_eq (by rw [List.foldlM_map]; rfl)
  addJoins cs := atomicForm_of_eq (by rw [List.foldlM_map]; rfl)
  addOrders cs := atomicForm_of_eq (by rw [List.foldlM_map]; rfl)
  apply set := by
    apply atomicForm_of_eq
    simp only [List.foldlM_cons, List.foldlM_nil, perform, bind_pure]
    rfl

end EntityQuery.Draft

namespace DirectorySearch.Draft

variable {e : Draft} {set : CriteriaSet}

/-- What a draft makes of a set of criteria. -/
structure AppliesSet (e : Draft) (set : CriteriaSet) : Prop where
  /-- It takes the set exactly when there are only restrictions and it takes them all. -/
  succeeds : (∃ e', e.apply set = .ok e') ↔
    set.joins = [] ∧ set.orders = [] ∧ ∃ e', e.addAll set.restrictions = .ok e'
  state : ∀ e', e.apply set = .ok e' → e.addAll set.restrictions = .ok e'
  /-- Joins are refused before any restriction. -/
  joins : set.joins ≠ [] → e.apply set = .error .unsupportedJoin
  restrictions : set.joins = [] → ∀ fault, e.addAll set.restrictions = .error fault →
    e.apply set = .error fault
  /-- Orders are refused after all restrictions. -/
  orders : set.joins = [] → set.orders ≠ [] → (∃ e', e.addAll set.restrictions = .ok e') →
    e.apply set = .error .unsupportedOrder

theorem appliesSet (e : Draft) (set : CriteriaSet) : AppliesSet e set := by
  obtain ⟨restrictions, joins, orders⟩ := set
  cases joins with
  | cons join joins =>
    have herror : e.apply ⟨restrictions, join :: joins, orders⟩ = .error .unsupportedJoin := rfl
    constructor <;> simp [herror]
  | nil =>
    have happly : e.apply ⟨restrictions, [], orders⟩ = (do
      let e' ← e.addAll restrictions
      if orders.isEmpty then .ok e' else .error .unsupportedOrder) := rfl
    cases hall : e.addAll restrictions with
    | error fault =>
      rw [hall, error_bind] at happly
      constructor <;> simp [happly, hall]
    | ok e' =>
      rw [hall, ok_bind] at happly
      cases orders with
      | nil =>
        have hok : e.apply ⟨restrictions, [], []⟩ = .ok e' := happly
        constructor <;> simp [hok, hall]
      | cons order orders =>
        have herror : e.apply ⟨restrictions, [], order :: orders⟩ = .error .unsupportedOrder :=
          happly
        constructor <;> simp [herror, hall]

/-- What a draft makes of calls, and of several criteria at once. -/
structure TakesAtomically (e : Draft) : Prop where
  /-- A call in place succeeds as the call does. -/
  inPlace : ∀ call e', e.perform call = .ok e' → InPlace.perform call e = .ok () e'
  /-- When it fails, it leaves the draft as it was. -/
  unchanged : ∀ call fault, e.perform call = .error fault →
    InPlace.perform call e = .error fault e
  addAll : ∀ cs, AtomicForm perform e (.addAll cs) (cs.map .add)
  addOrder : ∀ c, e.perform (.addOrder c) = .error .unsupportedOrder
  addOrders : ∀ cs, e.perform (.addOrders cs) = .error .unsupportedOrder
  apply : ∀ set, AppliesSet e set

theorem takesAtomically (e : Draft) : TakesAtomically e where
  inPlace call e' h := by rw [InPlace.perform_eq, atomically, h]
  unchanged call fault h := by rw [InPlace.perform_eq, atomically, h]
  addAll cs := atomicForm_of_eq (by rw [List.foldlM_map]; rfl)
  addOrder c := rfl
  addOrders cs := rfl
  apply set := appliesSet e set

end DirectorySearch.Draft

/-- Both kinds of drafts take several criteria as they take them one by one, or leave no trace. -/
theorem drafts_takeAtomically (d : EntityQuery.Draft) (e : DirectorySearch.Draft) :
    d.TakesAtomically ∧ e.TakesAtomically :=
  ⟨d.takesAtomically, e.takesAtomically⟩

/-- Without the copy, a batch that fails leaves what it has taken before. -/
example :
    let d := EntityQuery.Draft.start "Order" "order"
    let city := Criterion.comparing "city" .equal (.string "Mesa")
    let street := Criterion.testing "street" .isNull
    EntityQuery.InPlace.perform (.addAll [city, street]) d = .error (.missingLogical "street") d ∧
      (forM [city, street] EntityQuery.InPlace.add : Mutation _ _) d =
        .error (.missingLogical "street") (d.step (.add city)) :=
  ⟨rfl, rfl⟩

end QueryCriteria
