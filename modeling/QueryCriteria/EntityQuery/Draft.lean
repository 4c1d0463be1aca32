import QueryCriteria.Criterion
import QueryCriteria.EntityQuery.Basic
/-!
# Drafts of entity queries

A draft takes criteria one by one. Every call checks its criterion in full before anything changes,
so a call that fails leaves the draft as it was.
-/

namespace QueryCriteria.EntityQuery

/-- An entity query under construction, with the criteria accepted so far. -/
structure Draft where
  entity : String
  rootAlias : String
  joins : List JoinClause
  restrictions : List Fragment
  orders : List OrderClause
  parameters : Parameters
  hints : OrderedMap FetchHint
  openGroups : Nat
  restrictionCriteria : List Criterion
  orderCriteria : List Criterion
  joinCriteria : List Criterion

namespace Draft

/-- A draft without criteria, for an entity that goes by the given name. -/
def start (entity rootAlias : String) : Draft :=
  { entity, rootAlias, joins := [], restrictions := [], orders := [], parameters := .empty,
    hints := .empty, openGroups := 0, restrictionCriteria := [], orderCriteria := [],
    joinCriteria := [] }

/-- Whether a restriction or bracket has been accepted. -/
def hasRestrictions (d : Draft) : Bool := !d.restrictionCriteria.isEmpty

/-- Whether an order has been accepted. -/
def hasOrders (d : Draft) : Bool := !d.orderCriteria.isEmpty

/-- Whether a join has been accepted or planned. -/
def hasJoins (d : Draft) : Bool := !d.joinCriteria.isEmpty

/-- Whether the query asks for distinct rows: any join may repeat a row. -/
def isDistinct (d : Draft) : Bool := !d.joins.isEmpty

/-- The text of the query as it stands. -/
def text (d : Draft) : String :=
  "select " ++ (if d.isDistinct then "distinct " else "") ++ d.rootAlias ++ " from " ++ d.entity ++
    " " ++ d.rootAlias ++ String.join (d.joins.map (JoinClause.text d.rootAlias)) ++
    String.join (d.restrictions.map Fragment.text) ++ ordersText d.rootAlias d.orders

/-- The query, once all groups are closed. -/
def compile (d : Draft) : Except Fault EntityQuery :=
  if 0 < d.openGroups then .error (.openGroups d.openGroups)
  else .ok ⟨d.text, d.parameters, d.hints⟩

/-! ## Restrictions -/

/-- The fragment in front of the next restriction or group. The first one of the query follows the
word "where", whatever connective it has; the first one of a group has nothing before it; every
other one needs a connective. -/
def connective (d : Draft) (c : Criterion) : Except Fault (List Fragment) :=
  match d.restrictions.getLast? with
  | none => .ok [.whereWord]
  | some .opening =>
    if Operator.isDefined c.logical then .error (.danglingLogical c.logical) else .ok []
  | some _ =>
    match c.logical with
    | .and => .ok [.andWord]
    | .or => .ok [.orWord]
    | .undefined => .error (.missingLogical (c.operand.getD "("))

/-- The predicate of a restriction and the value it binds under the next parameter name. -/
def predicate (d : Draft) (c : Criterion) : Except Fault (Predicate × Option Value) := do
  let operand ← c.requireOperand "restriction"
  let path := d.rootAlias ++ "." ++ operand
  match c.comparison.shape with
  | .binary | .membership =>
    let value ← c.requireValue operand
    return (⟨path, c.comparison, some d.parameters.nextName⟩, some value)
  | .unary =>
    if c.value.isSome then .error (.unexpectedValue c.comparison operand)
    else .ok (⟨path, c.comparison, none⟩, none)
  | .none => .error (.missingComparison operand)

/-- Checks that a group is open. -/
def checkClosing (d : Draft) : Except Fault Unit :=
  if d.openGroups = 0 then .error .unmatchedClosing else .ok ()

/-- Adds a bare bracket. -/
def addMarker (d : Draft) (c : Criterion) : Except Fault Draft :=
  match c.enclosure with
  | .opening => do
    let connective ← d.connective c
    return { d with
      restrictions := d.restrictions ++ connective ++ [.opening]
      openGroups := d.openGroups + 1 }
  | .closing => do
    d.checkClosing
    if d.restrictions.getLast? = some .opening then .error .emptyGroup
    else .ok { d with
      restrictions := d.restrictions ++ [.closing]
      openGroups := d.openGroups - 1 }
  | .undefined => .error .undirectedMarker

/-- Adds a comparison with the bracket it opens or closes. -/
def addRestriction (d : Draft) (c : Criterion) : Except Fault Draft := do
  if c.enclosure = .closing then d.checkClosing
  let connective ← d.connective c
  let (predicate, value) ← d.predicate c
  let fragments := match c.enclosure with
    | .opening => [.opening, .predicate predicate]
    | .closing => [.predicate predicate, .closing]
    | .undefined => [.predicate predicate]
  return { d with
    restrictions := d.restrictions ++ connective ++ fragments
    parameters := value.elim d.parameters d.parameters.bind
    openGroups := match c.enclosure with
      | .opening => d.openGroups + 1
      | .closing => d.openGroups - 1
      | .undefined => d.openGroups }

/-- Adds a restriction or a bracket. -/
def add (d : Draft) (c : Criterion) : Except Fault Draft := do
  let d ← match ← c.role with
    | .restriction => d.addRestriction c
    | .enclosure => d.addMarker c
    | .join => .error .misplacedJoin
    | .order => .error .misplacedOrder
  return { d with restrictionCriteria := d.restrictionCriteria ++ [c] }

/-! ## Orders and joins -/

/-- Adds an order behind the others. -/
def addOrder (d : Draft) (c : Criterion) : Except Fault Draft := do
  match ← c.role with
  | .order =>
    let operand ← c.requireOperand "order"
    return { d with
      orders := d.orders ++ [⟨operand, c.order⟩]
      orderCriteria := d.orderCriteria ++ [c] }
  | _ => .error .notAnOrder

/-- Puts a join behind the others, unless one of them has the same target. -/
def pushJoin (d : Draft) (clause : JoinClause) (c : Criterion) : Draft :=
  if d.joins.any (·.sameTarget clause) then d
  else { d with joins := d.joins ++ [clause], joinCriteria := d.joinCriteria ++ [c] }

/-- Adds a join over a relation of the root. -/
def addJoin (d : Draft) (c : Criterion) : Except Fault Draft := do
  match ← c.role with
  | .join =>
    let operand ← c.requireOperand "join"
    return d.pushJoin ⟨c.join, none, operand, none⟩ c
  | _ => .error .notAJoin

/-! ## Batches -/

/-- Adds restrictions and brackets in order, all or none. -/
def addAll (d : Draft) (cs : List Criterion) : Except Fault Draft := cs.foldlM add d

/-- Adds orders in order, all or none. -/
def addOrders (d : Draft) (cs : List Criterion) : Except Fault Draft := cs.foldlM addOrder d

/-- Adds joins in order, all or none. -/
def addJoins (d : Draft) (cs : List Criterion) : Except Fault Draft := cs.foldlM addJoin d

end Draft

end QueryCriteria.EntityQuery
