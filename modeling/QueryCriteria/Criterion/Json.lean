import QueryCriteria.Criterion
import QueryCriteria.Json.Record
import QueryCriteria.Value.Json
/-!
# Criteria as JSON

A criterion is a record of its operand, its value and one field for each kind of operator; what is
absent or undefined is left out. An operator is written as its word.
-/

namespace QueryCriteria

/-- The tree of an operator, unless it is undefined. -/
def Operator.toJson? {α : Type} [DecidableEq α] [Operator α] (op : α) : Option Json :=
  if Operator.isDefined op then some (.string (Operator.word op)) else none

/-- Reads an operator: its word, or an object whose one member has that name and holds null. -/
def Operator.ofJson? {α : Type} [DecidableEq α] [Operator α] : Json → Option α
  | .string word => Operator.ofWord? word
  | .object [(word, .null)] => Operator.ofWord? word
  | _ => none

/-- Reads an operator field, which is undefined when it is missing. -/
def Operator.ofField? {α : Type} [DecidableEq α] [Operator α] : Option Json → Option α
  | none => some Operator.undefined
  | some j => Operator.ofJson? j

namespace Criterion

/-- The JSON tree of a criterion. -/
def toJson (c : Criterion) : Json :=
  .present [
    ("operand", c.operand.map .string),
    ("value", c.value.map Value.toJson),
    ("comparison", Operator.toJson? c.comparison),
    ("logical", Operator.toJson? c.logical),
    ("enclosure", Operator.toJson? c.enclosure),
    ("join", Operator.toJson? c.join),
    ("order", Operator.toJson? c.order)]

/-- The fields of a criterion, in order. -/
def fieldNames : List String :=
  ["operand", "value", "comparison", "logical", "enclosure", "join", "order"]

/-- Reads an operand field, where null stands for an absent operand. -/
def operandOfField? : Option Json → Option (Option String)
  | none | some .null => some none
  | some (.string s) => some (some s)
  | some _ => none

/-- Reads a value field, where null stands for an absent value. -/
def valueOfField? (room : Nat) : Option Json → Option (Option Value)
  | none | some .null => some none
  | some j => (Value.ofJson? room j).map some

/-- Reads a criterion from a tree that has room for so many levels of nesting. -/
def ofJson? (room : Nat) (j : Json) : Option Criterion := do
  let [operand, value, comparison, logical, enclosure, join, order] ← j.fields? fieldNames
    | none
  return {
    operand := ← operandOfField? operand
    value := ← valueOfField? (room - 1) value
    comparison := ← Operator.ofField? comparison
    logical := ← Operator.ofField? logical
    enclosure := ← Operator.ofField? enclosure
    join := ← Operator.ofField? join
    order := ← Operator.ofField? order }

/-- Reads a criterion from a text. -/
def read? (text : String) : Option Criterion := Json.read? text >>= ofJson? Json.depthLimit

end Criterion

/-- Reads a value from a text. -/
def Value.read? (text : String) : Option Value := Json.read? text >>= ofJson? Json.depthLimit

end QueryCriteria
