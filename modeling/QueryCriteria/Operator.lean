/-!
# Operators

The operators a criterion may carry, one kind for each part it can play. Every kind has an
`undefined` operator, which stands for an absent one.
-/

namespace QueryCriteria

/-- The comparison a restriction applies. -/
inductive Comparison where
  | equal
  | notEqual
  | greaterThan
  | greaterThanOrEqual
  | lessThan
  | lessThanOrEqual
  | like
  | notLike
  | isNull
  | isNotNull
  | isEmpty
  | isNotEmpty
  | memberOf
  | notMemberOf
  | undefined
deriving Repr, DecidableEq, Inhabited

/-- The connective between a restriction and the ones before it. -/
inductive Logical where
  | and
  | or
  | undefined
deriving Repr, DecidableEq, Inhabited

/-- The bracket a criterion opens or closes. -/
inductive Enclosure where
  | opening
  | closing
  | undefined
deriving Repr, DecidableEq, Inhabited

/-- The way a relation is joined. -/
inductive Join where
  | inner
  | innerFetch
  | left
  | leftFetch
  | undefined
deriving Repr, DecidableEq, Inhabited

/-- The direction of a sort order. -/
inductive Direction where
  | ascending
  | descending
  | undefined
deriving Repr, DecidableEq, Inhabited

/-- How a comparison uses the operand and the value. -/
inductive Shape where
  | binary
  | unary
  | membership
  | none
deriving Repr, DecidableEq, Inhabited

/-- Operators of one kind: the list of all, the word for each in a document, the name of each in a
message. -/
class Operator (α : Type) [DecidableEq α] where
  undefined : α
  all : List α
  word : α → String
  name : α → String

namespace Operator

variable {α : Type} [DecidableEq α] [Operator α]

/-- Whether an operator is given. -/
def isDefined (op : α) : Bool := !decide (op = undefined)

theorem isDefined_eq_false {op : α} : isDefined op = false ↔ op = undefined := by
  simp [isDefined]

/-- The operator that a word stands for. -/
def ofWord? (word : String) : Option α := (all : List α).find? fun op => Operator.word op = word

end Operator

instance : Operator Comparison where
  undefined := .undefined
  all := [.equal, .notEqual, .greaterThan, .greaterThanOrEqual, .lessThan, .lessThanOrEqual, .like,
    .notLike, .isNull, .isNotNull, .isEmpty, .isNotEmpty, .memberOf, .notMemberOf, .undefined]
  word
    | .equal => "equal"
    | .notEqual => "not_equal"
    | .greaterThan => "greater_than"
    | .greaterThanOrEqual => "greater_than_or_equal"
    | .lessThan => "less_than"
    | .lessThanOrEqual => "less_than_or_equal"
    | .like => "like"
    | .notLike => "not_like"
    | .isNull => "is_null"
    | .isNotNull => "is_not_null"
    | .isEmpty => "is_empty"
    | .isNotEmpty => "is_not_empty"
    | .memberOf => "member_of"
    | .notMemberOf => "not_member_of"
    | .undefined => "undefined"
  name
    | .equal => "Equal"
    | .notEqual => "NotEqual"
    | .greaterThan => "GreaterThan"
    | .greaterThanOrEqual => "GreaterThanOrEqual"
    | .lessThan => "LessThan"
    | .lessThanOrEqual => "LessThanOrEqual"
    | .like => "Like"
    | .notLike => "NotLike"
    | .isNull => "IsNull"
    | .isNotNull => "IsNotNull"
    | .isEmpty => "IsEmpty"
    | .isNotEmpty => "IsNotEmpty"
    | .memberOf => "MemberOf"
    | .notMemberOf => "NotMemberOf"
    | .undefined => "Undefined"

instance : Operator Logical where
  undefined := .undefined
  all := [.and, .or, .undefined]
  word
    | .and => "and"
    | .or => "or"
    | .undefined => "undefined"
  name
    | .and => "And"
    | .or => "Or"
    | .undefined => "Undefined"

instance : Operator Enclosure where
  undefined := .undefined
  all := [.opening, .closing, .undefined]
  word
    | .opening => "begin"
    | .closing => "end"
    | .undefined => "undefined"
  name
    | .opening => "Begin"
    | .closing => "End"
    | .undefined => "Undefined"

instance : Operator Join where
  undefined := .undefined
  all := [.inner, .innerFetch, .left, .leftFetch, .undefined]
  word
    | .inner => "join"
    | .innerFetch => "join_fetch"
    | .left => "left_join"
    | .leftFetch => "left_join_fetch"
    | .undefined => "undefined"
  name
    | .inner => "Join"
    | .innerFetch => "JoinFetch"
    | .left => "LeftJoin"
    | .leftFetch => "LeftJoinFetch"
    | .undefined => "Undefined"

instance : Operator Direction where
  undefined := .undefined
  all := [.ascending, .descending, .undefined]
  word
    | .ascending => "asc"
    | .descending => "desc"
    | .undefined => "undefined"
  name
    | .ascending => "Asc"
    | .descending => "Desc"
    | .undefined => "Undefined"

/-- The shape of a comparison. -/
def Comparison.shape : Comparison → Shape
  | .equal | .notEqual | .greaterThan | .greaterThanOrEqual | .lessThan | .lessThanOrEqual
  | .like | .notLike => .binary
  | .isNull | .isNotNull | .isEmpty | .isNotEmpty => .unary
  | .memberOf | .notMemberOf => .membership
  | .undefined => .none

/-- The name of a shape. -/
def Shape.name : Shape → String
  | .binary => "Binary"
  | .unary => "Unary"
  | .membership => "Membership"
  | .none => "None"

/-- The query-language keyword of a join. -/
def Join.keyword? : Join → Option String
  | .inner => some "join"
  | .innerFetch => some "join fetch"
  | .left => some "left join"
  | .leftFetch => some "left join fetch"
  | .undefined => none

/-- The query-language keyword of a direction. -/
def Direction.keyword? : Direction → Option String
  | .ascending => some "asc"
  | .descending => some "desc"
  | .undefined => none

end QueryCriteria
