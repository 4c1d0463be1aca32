import QueryCriteria.Fault
/-!
# Calls one after the other

A call on a state gives another state or names a fault. A call that fails changes nothing, and the
next one is made on the state as it was.
-/

namespace QueryCriteria

variable {σ κ : Type}

/-- The state after a call, as it was when the call fails. -/
def after (perform : σ → κ → Except Fault σ) (s : σ) (call : κ) : σ :=
  match perform s call with
  | .ok s' => s'
  | .error _ => s

end QueryCriteria
