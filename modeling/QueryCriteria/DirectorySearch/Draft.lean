import QueryCriteria.Criterion
import QueryCriteria.DirectorySearch.Basic
import QueryCriteria.DirectorySearch.Filter
/-!
# Drafts of directory searches

A draft keeps a stack of groups, the innermost first and the root last. The root starts with the
object classes of the mapping; a closed group becomes a part of the one it stood in, by the
connective it was opened with.
-/

namespace QueryCriteria.DirectorySearch

/-- A group that is not closed yet. -/
structure Frame where
  /-- The connective that will attach the group to the one around it. -/
  logical : Logical
  filter : Option Filter
  /-- Whether the group holds nothing but the object classes. -/
  seeded : Bool
deriving Repr, DecidableEq

/-- The connective for the next member of a group, if the group has one before it. The first member
has nothing to connect to, unless that is the object classes, which it always narrows. -/
def Frame.connective? (frame : Frame) (logical : Logical) : Except Fault (Option Connective) :=
  match frame.filter, frame.seeded, logical with
  | none, _, .undefined => .ok none
  | none, _, logical => .error (.danglingLogical logical)
  | some _, true, _ => .ok (some .and)
  | some _, false, .and => .ok (some .and)
  | some _, false, .or => .ok (some .or)
  | some _, false, .undefined => .error .unconnectedRestriction

/-- The group with another member. -/
def Frame.attach (frame : Frame) (logical : Logical) (member : Filter) : Except Fault Frame := do
  let connective ← frame.connective? logical
  let filter := match frame.filter, connective with
    | some current, some connective => current.wrap connective member
    | _, _ => member
  return { frame with filter := some filter, seeded := false }

/-- A directory search under construction, with the criteria accepted so far. -/
structure Draft where
  attributes : OrderedMap String
  searchBase : String
  searchScope : Scope
  /-- The open groups, innermost first; the root is the last. -/
  frames : List Frame
  restrictionCriteria : List Criterion

/-- Inserts a name into an increasing list, unless it is there. -/
def insertSorted (name : String) : List String → List String
  | [] => [name]
  | n :: names =>
    if name < n then name :: n :: names
    else if name = n then n :: names
    else n :: insertSorted name names

/-- The object classes that count: trimmed, without blanks and repetitions, in the order of their
code points. -/
def distinctClasses (classes : List String) : List String :=
  ((classes.map Text.trim).filter fun name => !name.isEmpty).foldr insertSorted []

namespace Draft

/-- A draft for a mapping, which must name an object class, an attribute, a search base and a
scope. -/
def create (mapping : Mapping) : Except Fault Draft :=
  let classes := distinctClasses mapping.objectClasses
  if classes.isEmpty then .error .missingObjectClass
  else if mapping.attributes.isEmpty then .error .missingAttributes
  else if Text.isBlank mapping.searchBase then .error .missingSearchBase
  else match mapping.searchScope with
    | none => .error .missingSearchScope
    | some searchScope =>
      .ok {
        attributes := mapping.attributes
        searchBase := mapping.searchBase
        searchScope
        frames := [⟨.undefined, some (.objectClasses classes), true⟩]
        restrictionCriteria := [] }

/-- Whether a restriction or bracket has been accepted. -/
def hasRestrictions (d : Draft) : Bool := !d.restrictionCriteria.isEmpty

/-- Whether an order has been accepted, which never happens. -/
def hasOrders (_ : Draft) : Bool := false

/-- The filter of the root; open groups are no part of it. -/
def filter? (d : Draft) : Option Filter := d.frames.getLast?.bind (·.filter)

/-- The text of the filter as it stands. -/
def filterText (d : Draft) : String := (d.filter?.map Filter.text).getD ""

/-- The search, once all groups are closed. -/
def compile (d : Draft) : Except Fault DirectorySearch :=
  if 1 < d.frames.length then .error (.openGroups (d.frames.length - 1))
  else .ok ⟨d.filterText, d.searchBase, d.searchScope⟩

/-! ## Restrictions -/

/-- The assertion for a comparison. Filters have no "less or equal"; it is asserted as "greater or
equal". -/
def assertion (comparison : Comparison) : Except Fault Assertion :=
  match comparison with
  | .equal => .ok .equal
  | .notEqual => .ok .notEqual
  | .greaterThanOrEqual | .lessThanOrEqual => .ok .greaterOrEqual
  | _ => .error (.unsupportedComparison comparison)

/-- The leaf for a restriction. -/
def leaf (d : Draft) (c : Criterion) : Except Fault Filter := do
  let assertion ← assertion c.comparison
  let operand ← c.requireOperand "restriction"
  match d.attributes.get? operand with
  | none => .error (.unmappedProperty operand)
  | some attributeName =>
    let value ← c.requireValue operand
    match value.literal? with
    | none => .error (.collectionValue operand)
    | some literal => .ok (.compare attributeName assertion literal)

/-- What a criterion brings to the filter: a leaf, or nothing when it is a bare bracket. -/
def leaf? (d : Draft) (c : Criterion) : Except Fault (Option Filter) := do
  match ← c.role with
  | .restriction => some <$> d.leaf c
  | .enclosure => .ok none
  | .join => .error .unsupportedJoin
  | .order => .error .unsupportedOrder

/-- Checks that a group can be attached to the innermost open one when it is closed. -/
def checkAttachable (frames : List Frame) (logical : Logical) : Except Fault Unit :=
  match frames with
  | [] => .ok ()
  | frame :: _ =>
    if frame.filter.isSome && !frame.seeded && !Operator.isDefined logical then
      .error .unconnectedGroup
    else if frame.filter.isNone && Operator.isDefined logical then
      .error (.danglingLogical logical)
    else .ok ()

/-- Attaches a member to the innermost open group. -/
def attach (frames : List Frame) (logical : Logical) (member : Filter) :
    Except Fault (List Frame) :=
  match frames with
  | [] => .error .noRootGroup
  | frame :: outer => do
    let frame ← frame.attach logical member
    return frame :: outer

/-- Closes the innermost open group, which must not be the root, nor empty. -/
def close (frames : List Frame) : Except Fault (List Frame) :=
  match frames with
  | frame :: outer =>
    if outer.isEmpty then .error .unmatchedClosing
    else match frame.filter with
      | none => .error .emptyGroup
      | some filter => attach outer frame.logical filter
  | [] => .error .unmatchedClosing

/-- The open groups after a criterion that brings the given leaf. -/
def place (frames : List Frame) (c : Criterion) (leaf : Option Filter) :
    Except Fault (List Frame) :=
  match c.enclosure, leaf with
  | .opening, leaf => do
    checkAttachable frames c.logical
    return ⟨c.logical, leaf, false⟩ :: frames
  | .closing, none => close frames
  | .closing, some leaf => do close (← attach frames c.logical leaf)
  | .undefined, some leaf => attach frames c.logical leaf
  | .undefined, none => .error .undirectedMarker

/-- Adds a restriction or a bracket. -/
def add (d : Draft) (c : Criterion) : Except Fault Draft := do
  let leaf ← d.leaf? c
  let frames ← place d.frames c leaf
  return { d with frames, restrictionCriteria := d.restrictionCriteria ++ [c] }

/-- Adds restrictions and brackets in order, all or none. -/
def addAll (d : Draft) (cs : List Criterion) : Except Fault Draft := cs.foldlM add d

/-- Orders are refused. -/
def addOrder (_ : Draft) (_ : Criterion) : Except Fault Draft := .error .unsupportedOrder

/-- Orders are refused, even none of them. -/
def addOrders (_ : Draft) (_ : List Criterion) : Except Fault Draft := .error .unsupportedOrder

end Draft

end QueryCriteria.DirectorySearch
