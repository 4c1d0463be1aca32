import QueryCriteria.Operator
import QueryCriteria.Text.Quoted
/-!
# Faults

Why a call on criteria is refused. A fault names its cause; `Fault.message` has the wording, and
`Fault.kind` tells arguments that are wrong anywhere from operations one kind of query lacks.
-/

namespace QueryCriteria

/-- The cause of a refusal. -/
inductive Fault where
  /-- A criterion without comparison, join, order and enclosure. -/
  | noRole
  /-- A criterion with more than one of comparison, join and order. -/
  | mixedRoles (operand : String)
  /-- A criterion whose operand is absent or blank. -/
  | missingOperand (purpose : String)
  /-- A comparison that needs a value and has none. -/
  | missingValue (comparison : Comparison) (operand : String)
  /-- A comparison that has a value and needs none. -/
  | unexpectedValue (comparison : Comparison) (operand : String)
  /-- A restriction without a comparison. -/
  | missingComparison (operand : String)
  /-- A connective in front of the first member of a group. -/
  | danglingLogical (logical : Logical)
  /-- A restriction of an entity query that follows another without a connective. -/
  | missingLogical (operand : String)
  /-- A restriction of a directory filter that follows another without a connective. -/
  | unconnectedRestriction
  /-- A group of a directory filter that follows a restriction without a connective. -/
  | unconnectedGroup
  /-- A closing bracket while no group is open. -/
  | unmatchedClosing
  /-- A closing bracket directly after its opening one. -/
  | emptyGroup
  /-- A marker that neither opens nor closes. -/
  | undirectedMarker
  /-- A criterion other than a join where a join is due. -/
  | notAJoin
  /-- A criterion other than an order where an order is due. -/
  | notAnOrder
  /-- A join among the restrictions. -/
  | misplacedJoin
  /-- An order among the restrictions. -/
  | misplacedOrder
  /-- Groups still open when a query is compiled. -/
  | openGroups (count : Nat)
  /-- A blank entity name. -/
  | missingEntity
  /-- An entity that the schema does not have. -/
  | unknownEntity (name : String)
  /-- A word that names no fetch strategy. -/
  | unknownStrategy (word : String)
  /-- A connective for an empty list of criteria. -/
  | emptyCriteria
  /-- A list comparison without values. -/
  | missingValues (purpose operand : String)
  /-- A directory mapping without an object class. -/
  | missingObjectClass
  /-- A directory mapping without attributes. -/
  | missingAttributes
  /-- A directory mapping with a blank search base. -/
  | missingSearchBase
  /-- A directory mapping without a search scope. -/
  | missingSearchScope
  /-- A property without a directory attribute. -/
  | unmappedProperty (operand : String)
  /-- A list where a directory filter needs a scalar. -/
  | collectionValue (operand : String)
  /-- A directory filter that has lost its root group. -/
  | noRootGroup
  /-- A comparison that directory filters lack. -/
  | unsupportedComparison (comparison : Comparison)
  /-- A join, which directory searches lack. -/
  | unsupportedJoin
  /-- An order, which directory searches lack. -/
  | unsupportedOrder
deriving Repr, DecidableEq

namespace Fault

/-- The two kinds of faults. -/
inductive Kind where
  | invalidArgument
  | unsupportedOperation
deriving Repr, DecidableEq

/-- The kind of a fault. -/
def kind : Fault → Kind
  | .unsupportedComparison _ | .unsupportedJoin | .unsupportedOrder => .unsupportedOperation
  | _ => .invalidArgument

/-- The cause in words. -/
def cause : Fault → String
  | .noRole => "criterion carries no comparison, join, order or enclosure"
  | .mixedRoles operand =>
    "criterion on " ++ Text.quote operand ++ " mixes comparison, join and order roles"
  | .missingOperand purpose => purpose ++ " requires an operand"
  | .missingValue comparison operand =>
    Operator.name comparison ++ " on " ++ Text.quote operand ++ " requires a value"
  | .unexpectedValue comparison operand =>
    Operator.name comparison ++ " on " ++ Text.quote operand ++ " takes no value"
  | .missingComparison operand => "restriction on " ++ Text.quote operand ++ " has no comparison"
  | .danglingLogical logical =>
    Operator.name logical ++ " directly after an opening enclosure has nothing to connect"
  | .missingLogical operand =>
    "restriction on " ++ Text.quote operand ++
      " follows another restriction but has no logical operator"
  | .unconnectedRestriction =>
    "restriction follows another restriction but has no logical operator"
  | .unconnectedGroup => "group follows another restriction but has no logical operator"
  | .unmatchedClosing => "enclosure end without a matching begin"
  | .emptyGroup => "enclosure closes an empty group"
  | .undirectedMarker => "enclosure marker without a direction"
  | .notAJoin => "add_join requires a criterion built by a join operation"
  | .notAnOrder => "add_order requires a criterion built by an order operation"
  | .misplacedJoin => "joins are added with add_join"
  | .misplacedOrder => "orders are added with add_order"
  | .openGroups count => toString count ++ " enclosure group(s) left open"
  | .missingEntity => "entity name is required"
  | .unknownEntity name => "entity " ++ Text.quote name ++ " is not registered in the schema"
  | .unknownStrategy word => "unknown fetch strategy " ++ Text.quote word
  | .emptyCriteria => "logical operator applied to an empty criteria list"
  | .missingValues purpose operand =>
    purpose ++ " on " ++ Text.quote operand ++ " requires at least one value"
  | .missingObjectClass => "at least one object class is required"
  | .missingAttributes => "a property to attribute mapping is required"
  | .missingSearchBase => "search base is required"
  | .missingSearchScope => "search scope is required"
  | .unmappedProperty operand =>
    "no directory attribute mapped for property " ++ Text.quote operand
  | .collectionValue operand =>
    "collection value for " ++ Text.quote operand ++ " cannot be rendered in a directory filter"
  | .noRootGroup => "directory filter has no root group"
  | .unsupportedComparison comparison =>
    Operator.name comparison ++ " is not supported by the directory backend"
  | .unsupportedJoin => "joins are not supported by the directory backend"
  | .unsupportedOrder => "ordering is not supported by the directory backend"

/-- The message of a fault: its kind, then its cause. -/
def message (fault : Fault) : String :=
  (match fault.kind with
    | .invalidArgument => "invalid argument: "
    | .unsupportedOperation => "unsupported operation: ") ++ fault.cause

end Fault

end QueryCriteria
