import QueryCriteria.Criterion
/-!
# Composite restrictions

Restrictions that take several criteria to say. The first of them carries no connective, so a list
is connected to what comes before it by putting one on its first member.
-/

namespace QueryCriteria.Criterion

/-- The operand is no less than `low` and no greater than `high`. -/
def between (operand : String) (low high : Value) : List Criterion :=
  [comparing operand .greaterThanOrEqual low,
   (comparing operand .lessThanOrEqual high).withLogical .and]

/-- The operand is less than `low` or greater than `high`. -/
def notBetween (operand : String) (low high : Value) : List Criterion :=
  [comparing operand .lessThan low,
   (comparing operand .greaterThan high).withLogical .or]

/-- The same comparison with each of some values: alone when there is one, else between brackets
with a connective in front of all but the first. -/
def spread (operand : String) (comparison : Comparison) (logical : Logical) (purpose : String) :
    List Value → Except Fault (List Criterion)
  | [] => .error (.missingValues purpose operand)
  | [value] => .ok [comparing operand comparison value]
  | value :: values =>
    .ok (marker .opening :: comparing operand comparison value ::
      values.map (fun v => (comparing operand comparison v).withLogical logical) ++
      [marker .closing])

/-- The operand equals one of the values. -/
def isIn (operand : String) (values : List Value) : Except Fault (List Criterion) :=
  spread operand .equal .or "is_in" values

/-- The operand differs from each of the values. -/
def isNotIn (operand : String) (values : List Value) : Except Fault (List Criterion) :=
  spread operand .notEqual .and "is_not_in" values

/-- Puts a connective on the first member of a list. -/
def connect (logical : Logical) : List Criterion → Except Fault (List Criterion)
  | [] => .error .emptyCriteria
  | c :: cs => .ok (c.withLogical logical :: cs)

end QueryCriteria.Criterion
