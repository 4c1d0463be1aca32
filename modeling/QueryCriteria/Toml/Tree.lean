import QueryCriteria.Toml.Basic
/-!
# Assembling tables

The tables of a document while its lines are taken in. A table is implicit until a line of its own
defines it, and dotted when it came about by a dotted key; both decide which further lines may
extend it. Every table is defined at most once, and a key is given at most one value.
-/

namespace QueryCriteria.Toml

/-- A table entry: a finished value, a table, or an array of tables. -/
inductive Node where
  | leaf (value : Toml)
  | table (implicit dotted : Bool) (entries : List (String × Node))
  | tables (elements : List (List (String × Node)))

namespace Node

/-- The entry under a key. -/
def find? (key : String) (entries : List (String × Node)) : Option Node :=
  (entries.find? fun entry => entry.1 = key).map (·.2)

/-- The entries with another one in the place of that under a key, or behind all. -/
def put (key : String) (node : Node) : List (String × Node) → List (String × Node)
  | [] => [(key, node)]
  | (k, n) :: rest => if k = key then (key, node) :: rest else (k, n) :: put key node rest

mutual
/-- The value of an entry. -/
def toToml : Node → Toml
  | .leaf value => value
  | .table _ _ entries => .table (toTomlEntries entries)
  | .tables elements => .array (toTomlElements elements)

/-- The values of the entries of a table. -/
def toTomlEntries : List (String × Node) → List (String × Toml)
  | [] => []
  | (key, node) :: entries => (key, node.toToml) :: toTomlEntries entries

/-- The values of the elements of an array of tables. -/
def toTomlElements : List (List (String × Node)) → List Toml
  | [] => []
  | element :: elements => .table (toTomlEntries element) :: toTomlElements elements
end

/-- A change of the entries of a table, given whether the table is dotted. -/
abbrev Change := Bool → List (String × Node) → Option (List (String × Node))

/-- Makes a change in the table at the end of a path, entering the last element of arrays of
tables, and making the tables that are missing. A path in a dotted key may only enter tables that
are implicit. -/
def changeAt (inKey : Bool) (change : Change) : List String → Change
  | [], isDotted, entries => change isDotted entries
  | key :: path, _, entries =>
    match find? key entries with
    | none => do
      let inner ← changeAt inKey change path inKey []
      return put key (.table true inKey inner) entries
    | some (.leaf _) => none
    | some (.table implicit dotted inner) =>
      if inKey && !implicit then none
      else do
        let inner ← changeAt inKey change path dotted inner
        return put key (.table implicit dotted inner) entries
    | some (.tables elements) =>
      match elements.getLast? with
      | none => none
      | some element => do
        let element ← changeAt inKey change path false element
        return put key (.tables (elements.dropLast ++ [element])) entries

/-- Gives a key its first value. -/
def addValue (key : String) (value : Toml) : Change := fun _ entries =>
  if (find? key entries).isSome then none else some (put key (.leaf value) entries)

/-- Gives a dotted key its value. A path of several keys must end in a dotted table, and a single
key must not stand in one. -/
def assign (path : List String) (value : Toml) : Change :=
  changeAt true
    (fun isDotted entries =>
      if isDotted == path.dropLast.isEmpty then none
      else addValue (path.getLast?.getD "") value isDotted entries)
    path.dropLast

/-- Defines the table under a key. It may be there only as an implicit table that no dotted key
made. -/
def defineTable (key : String) : Change := fun _ entries =>
  match find? key entries with
  | none => some (put key (.table false false []) entries)
  | some (.table true false inner) => some (put key (.table false false inner) entries)
  | some _ => none

/-- Puts an element behind the array of tables under a key. -/
def appendTable (key : String) : Change := fun _ entries =>
  match find? key entries with
  | none => some (put key (.tables [[]]) entries)
  | some (.tables elements) => some (put key (.tables (elements ++ [[]])) entries)
  | some _ => none

end Node

/-! ## Documents -/

/-- A line of a document: a value for a dotted key, or the header of the table that the next values
belong to. -/
inductive Line where
  | value (path : List String) (value : Toml)
  | table (path : List String)
  | element (path : List String)

/-- A document so far: the entries at the root, and the path of the last header. -/
structure Document where
  root : List (String × Node)
  header : List String

/-- The document after another line. -/
def Document.add? (d : Document) : Line → Option Document
  | .value path value => do
    let root ← Node.changeAt false (Node.assign path value) d.header false d.root
    return { d with root }
  | .table path => do
    let root ←
      Node.changeAt false (Node.defineTable (path.getLast?.getD "")) path.dropLast false d.root
    return ⟨root, path⟩
  | .element path => do
    let root ←
      Node.changeAt false (Node.appendTable (path.getLast?.getD "")) path.dropLast false d.root
    return ⟨root, path⟩

/-- The table that lines define. -/
def ofLines? (lines : List Line) : Option Toml := do
  let d ← lines.foldlM Document.add? ⟨[], []⟩
  return .table (Node.toTomlEntries d.root)

/-- The table that the pairs between braces define. -/
def ofPairs? (pairs : List (List String × Toml)) : Option Toml := do
  let entries ← pairs.foldlM (fun entries (path, value) => Node.assign path value false entries) []
  return .table (Node.toTomlEntries entries)

end QueryCriteria.Toml
