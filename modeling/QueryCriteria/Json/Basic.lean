import QueryCriteria.Json.Number
/-!
# JSON texts

A JSON text as a tree. Members keep their order, and a name may occur more than once: what a
repetition means is for the reader of an object to decide.
-/

namespace QueryCriteria

/-- A JSON text. A string, or an object with a member name, that holds an escaped surrogate without
its partner denotes no text; it is kept as `unpaired`, since it may still be passed over. -/
inductive Json where
  | null
  | bool (b : Bool)
  | number (n : Json.Number)
  | string (s : String)
  | unpaired
  | array (items : List Json)
  | object (members : List (String × Json))
deriving Inhabited

namespace Json

/-- A whole number. -/
def int (i : Int) : Json := .number (.ofInt i)

/-- A float; one that is not finite has no number and becomes null. -/
def float (x : Float) : Json := (Number.ofFloat? x).elim .null .number

/-- A list of strings. -/
def strings (items : List String) : Json := .array (items.map .string)

/-- The members of an object whose values are present. -/
def present (members : List (String × Option Json)) : Json :=
  .object (members.filterMap fun member => member.2.map (member.1, ·))

mutual
/-- How deep arrays and objects are nested. -/
def height : Json → Nat
  | .array items => heightItems items + 1
  | .object members => heightMembers members + 1
  | _ => 0

/-- The greatest height of some items. -/
def heightItems : List Json → Nat
  | [] => 0
  | item :: items => max item.height (heightItems items)

/-- The greatest height of some members. -/
def heightMembers : List (String × Json) → Nat
  | [] => 0
  | (_, item) :: members => max item.height (heightMembers members)
end

mutual
/-- Whether every part denotes something: no lone surrogate, and no number out of range. -/
def isMeaningful : Json → Bool
  | .number n => n.meaning?.isSome
  | .unpaired => false
  | .array items => areMeaningful items
  | .object members => areMeaningfulMembers members
  | _ => true

/-- `isMeaningful` of all items. -/
def areMeaningful : List Json → Bool
  | [] => true
  | item :: items => item.isMeaningful && areMeaningful items

/-- `isMeaningful` of all members. -/
def areMeaningfulMembers : List (String × Json) → Bool
  | [] => true
  | (_, item) :: members => item.isMeaningful && areMeaningfulMembers members
end

/-- How deep a text may be nested where it is read and not passed over. -/
def depthLimit : Nat := 127

/-- Whether a text can be read as a value: every part denotes something, and it is nested no deeper
than there is room for. -/
def isReadable (room : Nat) (j : Json) : Bool := j.isMeaningful && decide (j.height ≤ room)

end Json

end QueryCriteria
