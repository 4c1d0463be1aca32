import QueryCriteria.Fault
import QueryCriteria.Text.Blank
import QueryCriteria.Value
/-!
# Criteria

A criterion is one token of a sequence: a restriction, a bracket, a join or an order. It is what
its operators make it, and `Criterion.role` tells which part that is.
-/

namespace QueryCriteria

/-- One token of a sequence of criteria. -/
structure Criterion where
  operand : Option String := none
  value : Option Value := none
  comparison : Comparison := .undefined
  logical : Logical := .undefined
  enclosure : Enclosure := .undefined
  join : Join := .undefined
  order : Direction := .undefined
deriving Inhabited

/-- The part a criterion plays. -/
inductive Role where
  /-- A comparison, which may open or close a group too. -/
  | restriction
  /-- A bare bracket. -/
  | enclosure
  | join
  | order
deriving Repr, DecidableEq

namespace Criterion

/-- A restriction of an operand. -/
def restriction (operand : String) (comparison : Comparison) (value : Option Value) : Criterion :=
  { operand := some operand, comparison, value }

/-- A restriction that compares an operand with a value. -/
def comparing (operand : String) (comparison : Comparison) (value : Value) : Criterion :=
  restriction operand comparison (some value)

/-- A restriction that tests an operand alone. -/
def testing (operand : String) (comparison : Comparison) : Criterion :=
  restriction operand comparison none

/-- A bare bracket. -/
def marker (enclosure : Enclosure) : Criterion := { enclosure }

/-- A join over the relation that the operand names. -/
def joining (operand : String) (join : Join) : Criterion := { operand := some operand, join }

/-- An order by an operand. -/
def ordering (operand : String) (order : Direction) : Criterion :=
  { operand := some operand, order }

/-- The criterion with another connective. -/
def withLogical (c : Criterion) (logical : Logical) : Criterion := { c with logical }

/-- The criterion with another bracket. -/
def withEnclosure (c : Criterion) (enclosure : Enclosure) : Criterion := { c with enclosure }

/-- The part a criterion plays: that of its one operator among comparison, join and order, or of
its bracket when it has none of them. -/
def role (c : Criterion) : Except Fault Role :=
  match Operator.isDefined c.comparison, Operator.isDefined c.join, Operator.isDefined c.order with
  | true, false, false => .ok .restriction
  | false, true, false => .ok .join
  | false, false, true => .ok .order
  | false, false, false => if Operator.isDefined c.enclosure then .ok .enclosure else .error .noRole
  | _, _, _ => .error (.mixedRoles (c.operand.getD ""))

/-- The operand, which must not be blank for the purpose. -/
def requireOperand (c : Criterion) (purpose : String) : Except Fault String :=
  match c.operand with
  | some operand => if Text.isBlank operand then .error (.missingOperand purpose) else .ok operand
  | none => .error (.missingOperand purpose)

/-- The value, which the comparison needs. -/
def requireValue (c : Criterion) (operand : String) : Except Fault Value :=
  match c.value with
  | some value => .ok value
  | none => .error (.missingValue c.comparison operand)

end Criterion

end QueryCriteria
