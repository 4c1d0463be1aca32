import QueryCriteria.Proofs.Outcome
/-!
# Changes in place

A call may change a state piece by piece, and what it has changed by the time it fails stays
changed. Such a call is atomic when it leaves the state of a failure as it was. A call on a copy
is, whatever the call is (`staged_eq`).
-/

namespace QueryCriteria

/-- A call that changes a state in place. -/
abbrev Mutation (σ α : Type) := EStateM Fault σ α

namespace Mutation

variable {σ κ α : Type}

/-- Looks at the state, and may fail. -/
def check (f : σ → Except Fault α) : Mutation σ α := fun s =>
  match f s with
  | .ok a => .ok a s
  | .error fault => .error fault s

/-- What becomes of a call, apart from the state that it leaves when it fails. -/
def outcome (x : Mutation σ Unit) (s : σ) : Except Fault σ :=
  match x s with
  | .ok _ s' => .ok s'
  | .error fault _ => .error fault

/-- A call that leaves the state as it was when it fails. -/
def atomically (f : σ → Except Fault σ) : Mutation σ Unit := fun s =>
  match f s with
  | .ok s' => .ok () s'
  | .error fault => .error fault s

theorem check_bind (f : σ → Except Fault α) (next : α → Mutation σ Unit) (s : σ) :
    (check f >>= next) s = match f s with
      | .ok a => next a s
      | .error fault => .error fault s := by
  simp only [check, bind, EStateM.bind]
  cases f s <;> rfl

theorem get_bind (next : σ → Mutation σ Unit) (s : σ) : (get >>= next) s = next s s := rfl

/-- Makes a call on a copy of the state, which takes its place once the call has succeeded. -/
def staged (x : Mutation σ Unit) : Mutation σ Unit := do
  let copy ← check x.outcome
  set copy

theorem staged_eq (x : Mutation σ Unit) : x.staged = atomically x.outcome := by
  funext s
  simp only [staged, check, atomically, bind, EStateM.bind]
  cases x.outcome s <;> rfl

theorem atomically_bind (f : σ → Except Fault σ) (next : Unit → Mutation σ Unit) (s : σ) :
    (atomically f >>= next) s = match f s with
      | .ok s' => next () s'
      | .error fault => .error fault s := by
  simp only [atomically, bind, EStateM.bind]
  cases f s <;> rfl

@[simp] theorem outcome_atomically (f : σ → Except Fault σ) : (atomically f).outcome = f := by
  funext s
  unfold outcome atomically
  cases f s <;> rfl

theorem outcome_bind (x y : Mutation σ Unit) (s : σ) :
    outcome (do x; y) s = x.outcome s >>= y.outcome := by
  simp only [outcome, bind, EStateM.bind]
  cases x s <;> rfl

/-- Atomic calls one after the other, made on a copy, are an atomic batch. -/
theorem staged_forM {x : κ → Mutation σ Unit} {perform : σ → κ → Except Fault σ}
    (h : ∀ call, x call = atomically fun s => perform s call) (calls : List κ) :
    staged (forM calls x) = atomically fun s => calls.foldlM perform s := by
  rw [staged_eq]
  congr 1
  funext s
  induction calls generalizing s with
  | nil => rfl
  | cons call calls ih =>
    rw [List.forM_cons, outcome_bind, h, outcome_atomically, List.foldlM_cons]
    cases perform s call with
    | error fault => rfl
    | ok s' => exact ih s'

end Mutation

end QueryCriteria
