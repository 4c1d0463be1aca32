import QueryCriteria.OrderedMap
import QueryCriteria.Text.Blank
import QueryCriteria.Text.Lowercase
/-!
# Schemas

The entities a query may be about and the relations between them. An entity is registered and
looked up by its simple name, so a qualifier in front of it makes no difference.
-/

namespace QueryCriteria

/-- How many entities a relation leads to. -/
inductive Cardinality where
  | one
  | many
deriving Repr, DecidableEq, Inhabited

/-- A relation that an entity declares, to the entity named `target`. -/
structure Relation where
  name : String
  target : String
  cardinality : Cardinality
deriving Repr, DecidableEq

/-- An entity and its relations in order of declaration. -/
structure Entity where
  name : String
  relations : List Relation := []
deriving Repr, DecidableEq

/-- The part of a name behind its last dot or colon. -/
def simpleName (name : String) : String :=
  String.ofList (name.toList.reverse.takeWhile fun c => c != '.' && c != ':').reverse

/-- A simple name has no qualifier left. -/
@[simp] theorem simpleName_simpleName (name : String) :
    simpleName (simpleName name) = simpleName name := by
  simp only [simpleName, String.toList_ofList, List.reverse_reverse]
  congr 2
  generalize (fun c => c != '.' && c != ':' : Char → Bool) = inside
  induction name.toList.reverse with
  | nil => rfl
  | cons c cs ih => cases h : inside c <;> simp [h, ih]

namespace Entity

/-- The name without its qualifier. -/
def simpleName (e : Entity) : String := QueryCriteria.simpleName e.name

/-- The name that stands for the entity in a query: the simple name in small letters. -/
def aliasName (e : Entity) : String := Text.lower e.simpleName

end Entity

/-- Entities in order of registration, each under its simple name. -/
@[ext] structure Schema where
  entities : OrderedMap Entity
  named : ∀ entry ∈ entities.entries, entry.1 = entry.2.simpleName
deriving Repr, DecidableEq

namespace Schema

/-- The schema without entities. -/
def empty : Schema := ⟨.empty, by simp⟩

/-- Registers an entity, in the place of one with the same simple name if there is one. -/
def insert (s : Schema) (e : Entity) : Schema where
  entities := s.entities.insert e.simpleName e
  named entry h := by
    rcases OrderedMap.eq_or_mem_of_mem_insertPair h with rfl | h
    · rfl
    · exact s.named entry h

/-- Registers entities in order. -/
def ofList (es : List Entity) : Schema := es.foldl insert empty

/-- The entity that a simple or qualified name refers to. -/
def entity? (s : Schema) (name : String) : Option Entity := s.entities.get? (simpleName name)

/-- Whether a name refers to an entity. -/
def contains (s : Schema) (name : String) : Bool := (s.entity? name).isSome

/-- An entity that a name refers to has the simple name that it was looked up by. -/
theorem simpleName_of_entity? {s : Schema} {name : String} {e : Entity}
    (h : s.entity? name = some e) : e.simpleName = simpleName name :=
  (s.named _ (OrderedMap.mem_entries_of_get? h)).symm

/-- A qualifier makes no difference to what a name refers to. -/
theorem entity?_simpleName (s : Schema) (name : String) :
    s.entity? (QueryCriteria.simpleName name) = s.entity? name := by
  rw [entity?, entity?, simpleName_simpleName]

/-- The number of entities. -/
def size (s : Schema) : Nat := s.entities.size

/-- Whether there are no entities. -/
def isEmpty (s : Schema) : Bool := s.entities.isEmpty

/-- The entities in order of registration. -/
def toList (s : Schema) : List Entity := s.entities.values

/-- A registered entity is what its simple name refers to. -/
theorem entity?_of_mem {s : Schema} {e : Entity} (h : e ∈ s.toList) :
    s.entity? e.simpleName = some e := by
  obtain ⟨⟨name, e'⟩, hentry, rfl⟩ := List.mem_map.1 h
  have hname : name = e'.simpleName := s.named _ hentry
  rw [entity?, Entity.simpleName, simpleName_simpleName, ← Entity.simpleName, ← hname]
  exact OrderedMap.get?_of_mem_entries hentry

/-- What a name refers to is registered. -/
theorem mem_toList_of_entity? {s : Schema} {name : String} {e : Entity}
    (h : s.entity? name = some e) : e ∈ s.toList :=
  List.mem_map.2 ⟨_, OrderedMap.mem_entries_of_get? h, rfl⟩

/-- Why declarations make no schema. -/
inductive Fault where
  | malformed
  | unnamedEntity
  | repeatedEntity (name : String)
deriving Repr, DecidableEq

/-- The message of a fault. -/
def Fault.message : Fault → String
  | .malformed => "invalid schema TOML"
  | .unnamedEntity => "schema entity with empty name"
  | .repeatedEntity name => "entity " ++ name ++ " declared more than once"

/-- Registers a declared entity, which must have a name that is new. -/
def declare (s : Schema) (e : Entity) : Except Fault Schema :=
  if Text.isBlank e.name then .error .unnamedEntity
  else if s.contains e.name then .error (.repeatedEntity e.name)
  else .ok (s.insert e)

/-- The schema of declared entities; the first entity that cannot be registered decides. -/
def ofDeclarations (es : List Entity) : Except Fault Schema := es.foldlM declare empty

end Schema

end QueryCriteria
