import QueryCriteria.Proofs.Outcome
import QueryCriteria.Run
/-!
# Runs of calls

A run makes calls on a state one after the other. A call that fails names a fault and leaves the
state as it was, and the run goes on. What a projection of states makes of a run is told call by
call (`outcomes_map`, `run_project`), and so is what two runs of the same calls have in common
(`outcomes_of_seen`) and what a run keeps and records (`succeeding_induct`, `record_run`). A batch
is a run that stops at its first failure and is then forgotten (`foldlM_eq`).
-/

namespace QueryCriteria

variable {σ τ κ μ : Type}

/-! ## Runs -/

/-- The outcomes of the calls of a run: which of them succeed, and why the others fail. -/
def outcomes (perform : σ → κ → Except Fault σ) (s : σ) : List κ → List (Except Fault Unit)
  | [] => []
  | call :: calls =>
    (perform s call).map (fun _ => ()) :: outcomes perform (after perform s call) calls

/-- The fault of the first failure among outcomes. -/
def firstFault? : List (Except Fault Unit) → Option Fault
  | [] => none
  | .ok _ :: rest => firstFault? rest
  | .error fault :: _ => some fault

theorem firstFault?_eq_none {os : List (Except Fault Unit)} :
    firstFault? os = none ↔ ∀ o ∈ os, o = .ok () := by
  induction os with
  | nil => simp [firstFault?]
  | cons o os ih => cases o <;> simp [firstFault?, ih]

variable {perform : σ → κ → Except Fault σ} {perform' : τ → μ → Except Fault τ}

theorem after_of_ok {s s' : σ} {call : κ} (h : perform s call = .ok s') :
    after perform s call = s' := by
  simp [after, h]

theorem after_of_error {s : σ} {call : κ} {fault : Fault} (h : perform s call = .error fault) :
    after perform s call = s := by
  simp [after, h]

/-! ## Projections -/

/-- A projection that carries every call along carries the step after it along. -/
theorem after_map {g : σ → τ} {h : κ → μ} {s : σ} {call : κ}
    (hcall : perform' (g s) (h call) = (perform s call).map g) :
    after perform' (g s) (h call) = g (after perform s call) := by
  unfold after
  rw [hcall]
  cases perform s call <;> rfl

/-- Under a projection that carries every call along, a run has the same outcomes and the projected
state. -/
theorem outcomes_map {g : σ → τ} {h : κ → μ} {calls : List κ}
    (hcall : ∀ s, ∀ call ∈ calls, perform' (g s) (h call) = (perform s call).map g) (s : σ) :
    outcomes perform' (g s) (calls.map h) = outcomes perform s calls ∧
      (calls.map h).foldl (after perform') (g s) = g (calls.foldl (after perform) s) := by
  induction calls generalizing s with
  | nil => exact ⟨rfl, rfl⟩
  | cons call calls ih =>
    have hfirst := hcall s call (.head _)
    obtain ⟨hrest, hstate⟩ := ih (fun s call h => hcall s call (.tail _ h)) (after perform s call)
    constructor
    · rw [List.map_cons, outcomes, outcomes, after_map hfirst, hrest, hfirst]
      cases perform s call <;> rfl
    · rw [List.map_cons, List.foldl_cons, List.foldl_cons, after_map hfirst, hstate]

/-- Calls that look alike have the same outcomes, and leave states that look alike. -/
theorem outcomes_of_map_eq {g : σ → τ} {h : κ → μ} {calls calls' : List κ}
    (hcall : ∀ s, ∀ call ∈ calls, perform' (g s) (h call) = (perform s call).map g)
    (hcall' : ∀ s, ∀ call ∈ calls', perform' (g s) (h call) = (perform s call).map g)
    (heq : calls.map h = calls'.map h) (s : σ) :
    outcomes perform s calls = outcomes perform s calls' ∧
      g (calls.foldl (after perform) s) = g (calls'.foldl (after perform) s) := by
  obtain ⟨hout, hstate⟩ := outcomes_map hcall s
  obtain ⟨hout', hstate'⟩ := outcomes_map hcall' s
  exact ⟨by rw [← hout, heq, hout'], by rw [← hstate, heq, hstate']⟩

/-- A projection that carries every call along carries a batch of them along. -/
theorem foldlM_map {g : σ → τ} {h : κ → μ} {calls : List κ}
    (hcall : ∀ s, ∀ call ∈ calls, perform' (g s) (h call) = (perform s call).map g) (s : σ) :
    (calls.map h).foldlM perform' (g s) = (calls.foldlM perform s).map g := by
  induction calls generalizing s with
  | nil => rfl
  | cons call calls ih =>
    rw [List.map_cons, List.foldlM_cons, List.foldlM_cons, hcall s call (.head _)]
    cases perform s call with
    | error fault => rfl
    | ok s' => exact ih (fun s call h => hcall s call (.tail _ h)) s'

/-- Where a projection carries some calls along and the others do not show in it, it sees of a run
the run of those calls: their outcomes, and the projected state. -/
theorem run_project {g : σ → σ} {p : κ → Bool} {calls : List κ}
    (hseen : ∀ s, ∀ call ∈ calls, p call = true → perform (g s) call = (perform s call).map g)
    (hunseen : ∀ s s', ∀ call ∈ calls, p call = false → perform s call = .ok s' → g s' = g s)
    (s : σ) :
    (calls.zip (outcomes perform s calls)).filter (fun entry => p entry.1) =
        (calls.filter p).zip (outcomes perform (g s) (calls.filter p)) ∧
      g (calls.foldl (after perform) s) = (calls.filter p).foldl (after perform) (g s) := by
  induction calls generalizing s with
  | nil => exact ⟨rfl, rfl⟩
  | cons call calls ih =>
    obtain ⟨hrest, hstate⟩ := ih (fun s c h => hseen s c (.tail _ h))
      (fun s s' c h => hunseen s s' c (.tail _ h)) (after perform s call)
    rw [outcomes, List.zip_cons_cons, List.foldl_cons, hstate]
    cases hp : p call with
    | true =>
      have hfirst := hseen s call (.head _) hp
      have hafter : after perform (g s) call = g (after perform s call) :=
        after_map (h := id) hfirst
      simp only [List.filter_cons, hp, if_true, outcomes, List.zip_cons_cons, List.foldl_cons,
        hrest, hafter, hfirst, and_true]
      cases perform s call <;> rfl
    | false =>
      have hafter : g (after perform s call) = g s := by
        cases h : perform s call with
        | error fault => rw [after_of_error h]
        | ok s' => rw [after_of_ok h, hunseen s s' call (.head _) hp h]
      simp only [List.filter_cons, hp, Bool.false_eq_true, if_false, hrest, hafter, and_self]

/-! ## Observations -/

/-- Two calls in a row that look alike one by one look alike together. -/
theorem map_bind_of_seen {α β : Type} {g : σ → τ} {h : α → β} {x x' : Except Fault σ}
    {f f' : σ → Except Fault α} (hx : x.map g = x'.map g)
    (hf : ∀ s s', g s = g s' → (f s).map h = (f' s').map h) :
    (x >>= f).map h = (x' >>= f').map h := by
  cases x with
  | error fault =>
    cases x' with
    | error fault' => rw [error_bind, error_bind, Except.error.inj hx]
    | ok s' => cases hx
  | ok s =>
    cases x' with
    | error fault' => cases hx
    | ok s' => exact hf s s' (Except.ok.inj hx)

/-- Where what is seen of a state decides what is seen of every call, runs from states that look
alike have the same outcomes, and the states they leave look alike. -/
theorem outcomes_of_seen {g : σ → τ} {calls : List κ}
    (hcall : ∀ s s', ∀ call ∈ calls, g s = g s' →
      (perform s call).map g = (perform s' call).map g) {s s' : σ} (h : g s = g s') :
    outcomes perform s calls = outcomes perform s' calls ∧
      g (calls.foldl (after perform) s) = g (calls.foldl (after perform) s') := by
  induction calls generalizing s s' with
  | nil => exact ⟨rfl, h⟩
  | cons call calls ih =>
    have hfirst := hcall s s' call (.head _) h
    have hcalls := fun s s' call h => hcall s s' call (.tail _ h)
    rw [outcomes, outcomes, List.foldl_cons, List.foldl_cons]
    cases hs : perform s call <;> cases hs' : perform s' call <;> rw [hs, hs'] at hfirst
    · obtain ⟨hrest, hstate⟩ := ih hcalls h
      rw [after_of_error hs, after_of_error hs', hrest, Except.error.inj hfirst]
      exact ⟨rfl, hstate⟩
    · cases hfirst
    · cases hfirst
    · obtain ⟨hrest, hstate⟩ := ih hcalls (Except.ok.inj hfirst)
      rw [after_of_ok hs, after_of_ok hs', hrest]
      exact ⟨rfl, hstate⟩

/-- So do batches: they fail alike, or leave states that look alike. -/
theorem foldlM_of_seen {g : σ → τ} {calls : List κ}
    (hcall : ∀ s s', ∀ call ∈ calls, g s = g s' →
      (perform s call).map g = (perform s' call).map g) {s s' : σ} (h : g s = g s') :
    (calls.foldlM perform s).map g = (calls.foldlM perform s').map g := by
  induction calls generalizing s s' with
  | nil => exact congrArg Except.ok h
  | cons call calls ih =>
    rw [List.foldlM_cons, List.foldlM_cons]
    exact map_bind_of_seen (hcall s s' call (.head _) h) fun _ _ h =>
      ih (fun s s' call h => hcall s s' call (.tail _ h)) h

/-! ## What succeeds -/

/-- The calls of a run that succeed. -/
def succeeding (perform : σ → κ → Except Fault σ) (s : σ) : List κ → List κ
  | [] => []
  | call :: calls =>
    match perform s call with
    | .ok s' => call :: succeeding perform s' calls
    | .error _ => succeeding perform s calls

/-- The outcomes tell which calls succeed. -/
theorem succeeding_of_outcomes {s s' : σ} {calls : List κ}
    (h : outcomes perform s calls = outcomes perform s' calls) :
    succeeding perform s calls = succeeding perform s' calls := by
  induction calls generalizing s s' with
  | nil => rfl
  | cons call calls ih =>
    obtain ⟨hfirst, hrest⟩ := List.cons.inj h
    rw [succeeding, succeeding]
    cases hs : perform s call <;> cases hs' : perform s' call <;> rw [hs, hs'] at hfirst
    · rw [after_of_error hs, after_of_error hs'] at hrest
      exact ih hrest
    · cases hfirst
    · cases hfirst
    · rw [after_of_ok hs, after_of_ok hs'] at hrest
      exact congrArg (call :: ·) (ih hrest)

/-- What holds of the calls that have succeeded and of the state, and goes on so with every further
one that succeeds, holds at the end of a run. -/
theorem succeeding_induct {P : List κ → σ → Prop}
    (hcall : ∀ done s call s', P done s → perform s call = .ok s' → P (done ++ [call]) s')
    {l : List κ} {s : σ} (h : P l s) (calls : List κ) :
    P (l ++ succeeding perform s calls) (calls.foldl (after perform) s) := by
  induction calls generalizing l s with
  | nil => rwa [succeeding, List.append_nil]
  | cons call calls ih =>
    rw [succeeding, List.foldl_cons]
    cases hs : perform s call with
    | error fault =>
      rw [after_of_error hs]
      exact ih h
    | ok s' =>
      rw [after_of_ok hs, List.append_cons]
      exact ih (hcall l s call s' h hs)

/-- What every call that succeeds keeps, a run keeps. -/
theorem foldl_after_keeps {P : σ → Prop}
    (hcall : ∀ s call s', P s → perform s call = .ok s' → P s') {s : σ} (h : P s)
    (calls : List κ) : P (calls.foldl (after perform) s) :=
  succeeding_induct (P := fun _ => P) (l := []) (fun _ => hcall) h calls

section
variable {α : Type} {brings : κ → List α}

/-- What the calls of a run bring, as far as these succeed, in order. -/
def brought (perform : σ → κ → Except Fault σ) (brings : κ → List α) (s : σ) (calls : List κ) :
    List α :=
  (succeeding perform s calls).flatMap brings

/-- The outcomes tell what is brought. -/
theorem brought_of_outcomes {s s' : σ} {calls : List κ}
    (h : outcomes perform s calls = outcomes perform s' calls) :
    brought perform brings s calls = brought perform brings s' calls :=
  congrArg (List.flatMap brings) (succeeding_of_outcomes h)

/-- What holds of what has been brought and of the state, and goes on so with every further call
that succeeds, holds at the end of a run. -/
theorem brought_induct {P : List α → σ → Prop}
    (hcall : ∀ done s call s', P done s → perform s call = .ok s' → P (done ++ brings call) s')
    {l : List α} {s : σ} (h : P l s) (calls : List κ) :
    P (l ++ brought perform brings s calls) (calls.foldl (after perform) s) := by
  refine succeeding_induct (P := fun done => P (l ++ done.flatMap brings)) (l := [])
    (fun done s call s' h hs => ?_) (by rwa [List.flatMap_nil, List.append_nil]) calls
  rw [List.flatMap_append, List.flatMap_singleton, ← List.append_assoc]
  exact hcall _ s call s' h hs

/-- Where every call that succeeds records what it brings, a run does. -/
theorem record_run {r : σ → List α}
    (hcall : ∀ s call s', perform s call = .ok s' → r s' = r s ++ brings call) (s : σ)
    (calls : List κ) :
    r (calls.foldl (after perform) s) = r s ++ brought perform brings s calls := by
  refine brought_induct (P := fun done s' => r s' = r s ++ done) (l := [])
    (fun done s₁ call s₂ h hs => ?_) (List.append_nil _).symm calls
  rw [hcall s₁ call s₂ hs, h, List.append_assoc]

end

/-! ## Batches -/

/-- A batch does what the run of its calls does, when none of them fails, and otherwise fails as the
first of them that does. -/
theorem foldlM_eq (calls : List κ) (s : σ) :
    calls.foldlM perform s =
      match firstFault? (outcomes perform s calls) with
      | none => .ok (calls.foldl (after perform) s)
      | some fault => .error fault := by
  induction calls generalizing s with
  | nil => rfl
  | cons call calls ih =>
    rw [List.foldlM_cons, outcomes, List.foldl_cons]
    cases h : perform s call with
    | error fault => rfl
    | ok s' =>
      rw [after_of_ok h, ok_bind, ih]
      rfl

/-- A call that is the atomic form of a run of others, made from the same state. -/
structure AtomicForm (perform : σ → κ → Except Fault σ) (s : σ) (batch : κ) (calls : List κ) :
    Prop where
  /-- It succeeds exactly when every call of the run does. -/
  succeeds : (∃ s', perform s batch = .ok s') ↔ ∀ o ∈ outcomes perform s calls, o = .ok ()
  /-- It then gives the state after the run. -/
  state : ∀ s', perform s batch = .ok s' → s' = calls.foldl (after perform) s
  /-- Otherwise it fails as the first call of the run that fails. -/
  fault : ∀ fault, perform s batch = .error fault →
    firstFault? (outcomes perform s calls) = some fault

/-- A batch is the atomic form of the run of its calls. -/
theorem atomicForm_of_eq {s : σ} {batch : κ} {calls : List κ}
    (h : perform s batch = calls.foldlM perform s) : AtomicForm perform s batch calls := by
  rw [foldlM_eq] at h
  cases hfault : firstFault? (outcomes perform s calls) with
  | none =>
    rw [hfault] at h
    exact ⟨⟨fun _ => firstFault?_eq_none.1 hfault, fun _ => ⟨_, h⟩⟩,
      fun s' hs' => Except.ok.inj (hs'.symm.trans h), fun fault hf => (nomatch hf.symm.trans h)⟩
  | some fault =>
    rw [hfault] at h
    refine ⟨⟨fun ⟨_, hs'⟩ => (nomatch hs'.symm.trans h), fun hall => ?_⟩,
      fun s' hs' => (nomatch hs'.symm.trans h),
      fun fault' hf => hfault.trans (congrArg some (Except.error.inj (h.symm.trans hf)))⟩
    rw [firstFault?_eq_none.2 hall] at hfault
    cases hfault

end QueryCriteria
