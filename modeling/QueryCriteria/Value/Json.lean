import QueryCriteria.Value
import QueryCriteria.Json.Printer
import QueryCriteria.Json.Reader
/-!
# Values as JSON

A value is written without a tag, and its kind is told from the form of the text: the first that
fits of string, integer, float, boolean, entity and list. So an array of two strings is read as an
entity, and an integer that 64 bits cannot hold as a float.
-/

namespace QueryCriteria.Value

mutual
/-- The JSON tree of a value. -/
def toJson : Value → Json
  | .string s => .string s
  | .integer i => .int i.toInt
  | .float x => .float x
  | .boolean b => .bool b
  | .entity type id => .object [("entity", .string type), ("id", .string id)]
  | .list items => .array (toJsonItems items)

/-- The JSON trees of the items of a list. -/
def toJsonItems : List Value → List Json
  | [] => []
  | item :: items => item.toJson :: toJsonItems items
end

/-- The text under a name that occurs once among the members. -/
def uniqueText? (name : String) (members : List (String × Json)) : Option String :=
  match members.filter fun member => member.1 = name with
  | [(_, .string s)] => some s
  | _ => none

mutual
/-- The value that a readable tree denotes. Of an object only `entity` and `id` count. -/
def ofTree? : Json → Option Value
  | .null | .unpaired => none
  | .bool b => some (.boolean b)
  | .number n => n.meaning?.map fun
    | .integer i => .integer i
    | .float x => .float x
  | .string s => some (.string s)
  | .array [.string type, .string id] => some (.entity type id)
  | .array items => (ofTrees? items).map .list
  | .object members =>
    match uniqueText? "entity" members, uniqueText? "id" members with
    | some type, some id => some (.entity type id)
    | _, _ => none

/-- The values that readable trees denote, if all of them do. -/
def ofTrees? : List Json → Option (List Value)
  | [] => some []
  | item :: items =>
    match ofTree? item, ofTrees? items with
    | some value, some values => some (value :: values)
    | _, _ => none
end

/-- Reads a value from a tree, in a text that has room for so many levels of nesting below it. -/
def ofJson? (room : Nat) (j : Json) : Option Value :=
  if j.isReadable room then ofTree? j else none

end QueryCriteria.Value
