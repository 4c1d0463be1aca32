import QueryCriteria.CriteriaSet
import QueryCriteria.EntityQuery.Parameters
/-!
# Blanked values

Criteria and tables of values with one fixed value in place of every value they hold. What is left
is all but the values: which there are, and where they stand.
-/

namespace QueryCriteria

/-! ## Tables -/

namespace OrderedMap

variable {α β : Type}

def mapValues (f : α → β) (m : OrderedMap α) : OrderedMap β where
  entries := m.entries.map fun entry => (entry.1, f entry.2)
  nodup := by simpa [Function.comp_def] using m.nodup

@[simp] theorem size_mapValues (f : α → β) (m : OrderedMap α) : (m.mapValues f).size = m.size := by
  simp [mapValues, size]

@[simp] theorem keys_mapValues (f : α → β) (m : OrderedMap α) : (m.mapValues f).keys = m.keys := by
  simp [mapValues, keys, Function.comp_def]

theorem mapValues_insert (f : α → β) (m : OrderedMap α) (name : String) (value : α) :
    (m.insert name value).mapValues f = (m.mapValues f).insert name (f value) := by
  have hpair (entries : List (String × α)) :
      (insertPair name value entries).map (fun entry => (entry.1, f entry.2)) =
        insertPair name (f value) (entries.map fun entry => (entry.1, f entry.2)) := by
    induction entries with
    | nil => rfl
    | cons entry rest ih =>
      by_cases h : entry.1 = name
      · simp [insertPair, h]
      · simp [insertPair, h, ih]
  exact OrderedMap.ext (hpair m.entries)

end OrderedMap

/-! ## Criteria -/

/-- What stands in place of every value. -/
def Value.blank : Value := .string ""

namespace Criterion

/-- The criterion with its value blanked, if it has one. -/
def blanked (c : Criterion) : Criterion := { c with value := c.value.map fun _ => .blank }

/-- The value of the criterion, if it has one, is no list. -/
def Scalar (c : Criterion) : Prop := ∀ v, c.value = some v → v.isList = false

/-- Two criteria are blanked alike when they differ in the values they carry and in nothing else,
and one has a value if the other has. -/
theorem blanked_eq_iff {c c' : Criterion} : c.blanked = c'.blanked ↔
    { c with value := none } = { c' with value := none } ∧
      (c.value.isSome = true ↔ c'.value.isSome = true) := by
  obtain ⟨operand, value, comparison, logical, enclosure, join, order⟩ := c
  obtain ⟨operand', value', comparison', logical', enclosure', join', order'⟩ := c'
  cases value <;> cases value' <;> simp [blanked]

@[simp] theorem role_blanked (c : Criterion) : c.blanked.role = c.role := rfl

@[simp] theorem requireOperand_blanked (c : Criterion) (purpose : String) :
    c.blanked.requireOperand purpose = c.requireOperand purpose := rfl

@[simp] theorem requireValue_blanked (c : Criterion) (operand : String) :
    c.blanked.requireValue operand = (c.requireValue operand).map fun _ => .blank := by
  unfold requireValue blanked
  cases c.value <;> rfl

end Criterion

/-- The set with the values of its criteria blanked. -/
def CriteriaSet.blanked (set : CriteriaSet) : CriteriaSet where
  restrictions := set.restrictions.map .blanked
  joins := set.joins.map .blanked
  orders := set.orders.map .blanked

/-! ## Parameters -/

namespace EntityQuery.Parameters

def blanked (p : Parameters) : Parameters := ⟨p.bindings.mapValues fun _ => .blank⟩

@[simp] theorem nextName_blanked (p : Parameters) : p.blanked.nextName = p.nextName := by
  simp [nextName, blanked]

theorem bind_blanked (p : Parameters) (value : Value) :
    (p.bind value).blanked = p.blanked.bind .blank := by
  have hname : p.blanked.nextName = p.nextName := p.nextName_blanked
  rw [bind, bind, hname]
  exact congrArg Parameters.mk (OrderedMap.mapValues_insert _ _ _ _)

end EntityQuery.Parameters

end QueryCriteria
