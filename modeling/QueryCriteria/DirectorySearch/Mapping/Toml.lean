import QueryCriteria.DirectorySearch.Mapping
import QueryCriteria.Toml.Reader
/-!
# Directory mappings as TOML

A mapping document has a key for each field of a mapping; each may be missing.
-/

namespace QueryCriteria.DirectorySearch

/-- Reads a scope. -/
def Scope.ofToml? (t : Toml) : Option Scope :=
  match t.choice? with
  | some "one" => some .one
  | some "subtree" => some .subtree
  | _ => none

/-- Reads a field of a document, which may be missing. -/
def readField {α : Type} (document : Toml) (name : String) (place : Nat) (missing : α)
    (read? : Toml → Option α) : Option α :=
  match document.field? name place with
  | none => some missing
  | some t => read? t

/-- Reads a mapping document. -/
def Mapping.read? (text : String) : Option Mapping := do
  let document ← QueryCriteria.Toml.read? text
  return {
    objectClasses := ← readField document "object_classes" 0 [] fun t =>
      t.items? >>= List.mapM Toml.text?
    attributes := ← readField document "attributes" 1 .empty fun t =>
      t.texts?.map OrderedMap.ofList
    searchBase := ← readField document "search_base" 2 "" Toml.text?
    searchScope := ← readField document "search_scope" 3 none fun t => (Scope.ofToml? t).map some }

end QueryCriteria.DirectorySearch
