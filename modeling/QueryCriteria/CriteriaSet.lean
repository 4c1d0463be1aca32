import QueryCriteria.Criterion.Json
/-!
# Sets of criteria

The three streams of criteria that a query takes, and the document that holds them.
-/

namespace QueryCriteria

/-- Restrictions, joins and orders for one query. -/
structure CriteriaSet where
  restrictions : List Criterion := []
  joins : List Criterion := []
  orders : List Criterion := []
deriving Inhabited

namespace CriteriaSet

/-- The tree of one stream, unless it is empty. -/
def streamToJson? (cs : List Criterion) : Option Json :=
  if cs.isEmpty then none else some (.array (cs.map Criterion.toJson))

/-- The JSON tree of a set; empty streams are left out. -/
def toJson (set : CriteriaSet) : Json :=
  .present [
    ("restrictions", streamToJson? set.restrictions),
    ("joins", streamToJson? set.joins),
    ("orders", streamToJson? set.orders)]

/-- Reads a stream that stands two levels below the top of a text. -/
def streamOfField? : Option Json → Option (List Criterion)
  | none => some []
  | some (.array items) => items.mapM (Criterion.ofJson? (Json.depthLimit - 2))
  | some _ => none

/-- Reads a set from a tree. -/
def ofJson? (j : Json) : Option CriteriaSet := do
  let [restrictions, joins, orders] ← j.fields? ["restrictions", "joins", "orders"] | none
  return {
    restrictions := ← streamOfField? restrictions
    joins := ← streamOfField? joins
    orders := ← streamOfField? orders }

/-- Reads a set from a document. -/
def read? (text : String) : Option CriteriaSet := Json.read? text >>= ofJson?

end CriteriaSet

end QueryCriteria
