import QueryCriteria.Decimal.Positional
import QueryCriteria.Text.Quoted
/-!
# Values

What a restriction compares its operand with. A query binds a value as a parameter, whatever it
is; a directory filter holds the text of a scalar, and a list has none.
-/

namespace QueryCriteria

/-- A value. An entity is referred to by the name of its type and an identifier. -/
inductive Value where
  | string (s : String)
  | integer (i : Int64)
  | float (x : Float)
  | boolean (b : Bool)
  | entity (type id : String)
  | list (items : List Value)
deriving Inhabited

namespace Value

/-- The name of a value's kind. -/
def kind : Value → String
  | .string _ => "String"
  | .integer _ => "Integer"
  | .float _ => "Float"
  | .boolean _ => "Boolean"
  | .entity _ _ => "Entity"
  | .list _ => "List"

/-- Whether a value is a list. -/
def isList : Value → Bool
  | .list _ => true
  | _ => false

mutual
/-- A value as a message shows it. -/
def display : Value → String
  | .string s => Text.quote s
  | .integer i => toString i.toInt
  | .float x => Decimal.positional x
  | .boolean b => if b then "true" else "false"
  | .entity type id => type ++ "#" ++ id
  | .list items => "[" ++ displayItems items ++ "]"

/-- The items of a list, with commas between them. -/
def displayItems : List Value → String
  | [] => ""
  | [item] => item.display
  | item :: items => item.display ++ ", " ++ displayItems items
end

/-- The text a directory filter holds for a scalar, before it is escaped. -/
def literal? : Value → Option String
  | .string s => some s
  | .integer i => some (toString i.toInt)
  | .float x => some (Decimal.positional x)
  | .boolean b => some (if b then "TRUE" else "FALSE")
  | .entity _ id => some id
  | .list _ => none

/-- Exactly the lists have no literal. -/
theorem literal?_isSome (v : Value) : v.literal?.isSome = !v.isList := by
  cases v <;> rfl

end Value

end QueryCriteria
