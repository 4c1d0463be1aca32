import QueryCriteria.Json.Basic
import QueryCriteria.OrderedMap
/-!
# Directory mappings

Where in a directory a kind of object is found, and which attribute holds each of its properties.
-/

namespace QueryCriteria.DirectorySearch

/-- How far below its base a search goes. -/
inductive Scope where
  /-- The entries directly below the base. -/
  | one
  /-- The base and all below it. -/
  | subtree
deriving Repr, DecidableEq

/-- The word for a scope. -/
def Scope.word : Scope → String
  | .one => "one"
  | .subtree => "subtree"

/-- Everything about a kind of object that a search of it needs. -/
structure Mapping where
  objectClasses : List String := []
  attributes : OrderedMap String := .empty
  searchBase : String := ""
  searchScope : Option Scope := none
deriving Repr, DecidableEq

/-- The JSON tree of a mapping. -/
def Mapping.toJson (m : Mapping) : Json :=
  .object [
    ("object_classes", .strings m.objectClasses),
    ("attributes", .object (m.attributes.entries.map fun (name, value) => (name, .string value))),
    ("search_base", .string m.searchBase),
    ("search_scope", m.searchScope.elim .null fun scope => .string scope.word)]

end QueryCriteria.DirectorySearch
