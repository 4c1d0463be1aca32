import QueryCriteria.OrderedMap
import QueryCriteria.Value
/-!
# Parameters

The values a query binds, named `param1`, `param2` and so on in the order in which they are bound.
-/

namespace QueryCriteria.EntityQuery

/-- Values by parameter name, in order. -/
structure Parameters where
  bindings : OrderedMap Value

namespace Parameters

/-- No parameters. -/
def empty : Parameters := ⟨.empty⟩

/-- The name the next value is bound under. -/
def nextName (p : Parameters) : String := "param" ++ toString (p.bindings.size + 1)

/-- Binds a value under the next name. -/
def bind (p : Parameters) (value : Value) : Parameters := ⟨p.bindings.insert p.nextName value⟩

/-- The value bound under a name. -/
def get? (p : Parameters) (name : String) : Option Value := p.bindings.get? name

/-- Names and values in order. -/
def toList (p : Parameters) : List (String × Value) := p.bindings.entries

/-- Whether nothing is bound. -/
def isEmpty (p : Parameters) : Bool := p.bindings.isEmpty

end Parameters

end QueryCriteria.EntityQuery
