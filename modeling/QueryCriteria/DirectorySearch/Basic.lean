import QueryCriteria.DirectorySearch.Mapping
/-!
# Directory searches

A compiled search: the text of its filter, and the place in the directory it is run at.
-/

namespace QueryCriteria

/-- A compiled directory search. -/
structure DirectorySearch where
  filter : String
  searchBase : String
  searchScope : DirectorySearch.Scope
deriving Repr, DecidableEq

/-- The JSON tree of a search. -/
def DirectorySearch.toJson (s : DirectorySearch) : Json :=
  .object [
    ("filter", .string s.filter),
    ("search_base", .string s.searchBase),
    ("search_scope", .string s.searchScope.word)]

end QueryCriteria
