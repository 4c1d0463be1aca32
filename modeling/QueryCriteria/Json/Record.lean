import QueryCriteria.Json.Basic
/-!
# Records in JSON

A record is written as an object of its fields, or as an array of them in order whose tail may be
missing. An object may have members that are no fields of the record, whatever they hold; a field
may not occur twice.
-/

namespace QueryCriteria.Json

/-- The member under a name: `none` when the name occurs twice, `some none` when it is missing. -/
def field? (members : List (String × Json)) (name : String) : Option (Option Json) :=
  match members.filter fun member => member.1 = name with
  | [] => some none
  | [(_, j)] => some (some j)
  | _ => none

/-- The fields of a record with the given names. -/
def fields? (names : List String) : Json → Option (List (Option Json))
  | .array items =>
    if items.length ≤ names.length then
      some (items.map some ++ List.replicate (names.length - items.length) none)
    else none
  | .object members => names.mapM (field? members)
  | _ => none

end QueryCriteria.Json
