import QueryCriteria.Operator
/-!
# Clauses

The parts of the text of an entity query: the fragments of its where clause, its joins and its
orders.
-/

namespace QueryCriteria.EntityQuery

/-- A comparison of a path with a parameter, or a test of the path alone. -/
structure Predicate where
  path : String
  comparison : Comparison
  parameter : Option String
deriving Repr, DecidableEq

/-- The symbol between a path and a parameter. -/
def binarySymbol : Comparison → String
  | .equal => "="
  | .notEqual => "<>"
  | .greaterThan => ">"
  | .greaterThanOrEqual => ">="
  | .lessThan => "<"
  | .lessThanOrEqual => "<="
  | .like => "like"
  | .notLike => "not like"
  | _ => ""

/-- The keywords between a parameter and the collection it may be in. -/
def membershipKeyword : Comparison → String
  | .memberOf => "member of"
  | _ => "not member of"

/-- The keywords behind a path that is tested alone. -/
def testKeyword : Comparison → String
  | .isNull => "is null"
  | .isNotNull => "is not null"
  | .isEmpty => "is empty"
  | _ => "is not empty"

/-- The text of a predicate. -/
def Predicate.text (p : Predicate) : String :=
  match p.comparison.shape, p.parameter with
  | .binary, some name => p.path ++ " " ++ binarySymbol p.comparison ++ " :" ++ name
  | .membership, some name => ":" ++ name ++ " " ++ membershipKeyword p.comparison ++ " " ++ p.path
  | _, _ => p.path ++ " " ++ testKeyword p.comparison

/-- A fragment of a where clause. -/
inductive Fragment where
  | whereWord
  | andWord
  | orWord
  | opening
  | closing
  | predicate (p : Predicate)
deriving Repr, DecidableEq

/-- The text of a fragment; the words bring the spaces around them. -/
def Fragment.text : Fragment → String
  | .whereWord => " where "
  | .andWord => " and "
  | .orWord => " or "
  | .opening => "("
  | .closing => ")"
  | .predicate p => p.text

/-- A join over a relation of the entity that `owner` stands for, the root when there is none. What
it joins may get a name of its own. -/
structure JoinClause where
  operator : Join
  owner : Option String
  operand : String
  aliasName : Option String
deriving Repr, DecidableEq

namespace JoinClause

/-- Whether two clauses join the same relation in the same way, whatever they name it. -/
def sameTarget (a b : JoinClause) : Bool :=
  a.operator = b.operator && a.owner = b.owner && a.operand = b.operand

/-- The text of a join, in a query whose root goes by the given name. -/
def text (rootAlias : String) (j : JoinClause) : String :=
  match j.operator.keyword? with
  | none => ""
  | some keyword =>
    " " ++ keyword ++ " " ++ j.owner.getD rootAlias ++ "." ++ j.operand ++
      (j.aliasName.elim "" fun name => " " ++ name)

end JoinClause

/-- A sort order by an attribute of the root. -/
structure OrderClause where
  operand : String
  direction : Direction
deriving Repr, DecidableEq

/-- The text of an order, in a query whose root goes by the given name. -/
def OrderClause.text (rootAlias : String) (o : OrderClause) : String :=
  rootAlias ++ "." ++ o.operand ++ (o.direction.keyword?.elim "" fun keyword => " " ++ keyword)

/-- The text of all orders. -/
def ordersText (rootAlias : String) : List OrderClause → String
  | [] => ""
  | orders => " order by " ++ String.intercalate ", " (orders.map (OrderClause.text rootAlias))

/-- A hint to whoever runs a query on how to load a relation. -/
inductive FetchHint where
  /-- All rows' collections by one further query. -/
  | batchFetch
  /-- A single entity by an outer join. -/
  | leftFetch
deriving Repr, DecidableEq

/-- The word for a hint. -/
def FetchHint.word : FetchHint → String
  | .batchFetch => "batch_fetch"
  | .leftFetch => "left_fetch"

end QueryCriteria.EntityQuery
