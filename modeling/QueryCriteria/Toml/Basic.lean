/-!
# TOML values

What a TOML text denotes. A moment in time is kept as its canonical text.
-/

namespace QueryCriteria

/-- A TOML value. The keys of a table are distinct. -/
inductive Toml where
  | string (s : String)
  | integer (i : Int)
  | float (x : Float)
  | boolean (b : Bool)
  | moment (text : String)
  | array (items : List Toml)
  | table (entries : List (String × Toml))
deriving Inhabited

namespace Toml

/-- The text of a string. -/
def text? : Toml → Option String
  | .string s => some s
  | _ => none

/-- The items of an array. -/
def items? : Toml → Option (List Toml)
  | .array items => some items
  | _ => none

/-- The value under a key. -/
def find? (key : String) (entries : List (String × Toml)) : Option Toml :=
  (entries.find? fun entry => entry.1 = key).map (·.2)

/-- A field of a record, which is a table with the field under its name or an array with the field
at its place. -/
def field? (name : String) (place : Nat) : Toml → Option Toml
  | .table entries => find? name entries
  | .array items => items[place]?
  | _ => none

/-- The word of a choice, which is a string or a table whose one key holds nothing. -/
def choice? : Toml → Option String
  | .string word => some word
  | .table [(word, .table [])] => some word
  | .table [(word, .array [])] => some word
  | _ => none

/-- The pairs of a table of strings. A moment counts as one under a reserved key. -/
def texts? : Toml → Option (List (String × String))
  | .table entries => entries.mapM fun (key, value) => value.text?.map (key, ·)
  | .moment text => some [("$__toml_private_datetime", text)]
  | _ => none

end Toml

end QueryCriteria
