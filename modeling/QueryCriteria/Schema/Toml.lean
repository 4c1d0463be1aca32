import QueryCriteria.Schema
import QueryCriteria.Toml.Reader
/-!
# Schemas as TOML

A schema document has an array `entity`, each with a name and an array `relation`.
-/

namespace QueryCriteria

/-- Reads a cardinality. -/
def Cardinality.ofToml? (t : Toml) : Option Cardinality :=
  match t.choice? with
  | some "one" => some .one
  | some "many" => some .many
  | _ => none

/-- Reads a relation; all its fields are there. -/
def Relation.ofToml? (t : Toml) : Option Relation := do
  return {
    name := ← t.field? "name" 0 >>= Toml.text?
    target := ← t.field? "target" 1 >>= Toml.text?
    cardinality := ← t.field? "cardinality" 2 >>= Cardinality.ofToml? }

/-- Reads an entity, which may have no relations. -/
def Entity.ofToml? (t : Toml) : Option Entity := do
  let name ← t.field? "name" 0 >>= Toml.text?
  let relations ← match t.field? "relation" 1 with
    | none => some []
    | some relations => relations.items? >>= List.mapM Relation.ofToml?
  return { name, relations }

namespace Schema

/-- Reads the entities that a document declares. -/
def declarations? (text : String) : Option (List Entity) := do
  let document ← Toml.read? text
  match document.field? "entity" 0 with
  | none => some []
  | some entities => entities.items? >>= List.mapM Entity.ofToml?

/-- Reads a schema document. -/
def read (text : String) : Except Fault Schema :=
  match declarations? text with
  | none => .error .malformed
  | some entities => ofDeclarations entities

end Schema

end QueryCriteria
