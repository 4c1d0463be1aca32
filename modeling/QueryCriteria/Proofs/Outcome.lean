import QueryCriteria.Fault
/-!
# Outcomes

Calls that fail name a cause. `Agrees` ties such an outcome to one that only fails, by a relation
between what the two give when they succeed; it carries over from the parts of a call to the whole.
-/

namespace QueryCriteria

variable {α β σ τ : Type}

section
variable {ε : Type}

@[simp] theorem ok_bind (a : α) (f : α → Except ε β) : Except.ok a >>= f = f a := rfl

@[simp] theorem error_bind (fault : ε) (f : α → Except ε β) :
    Except.error fault >>= f = .error fault := rfl

/-- A sequence of two calls succeeds when both do. -/
theorem bind_eq_ok_iff {x : Except ε α} {f : α → Except ε β} {b : β} :
    x >>= f = .ok b ↔ ∃ a, x = .ok a ∧ f a = .ok b := by
  cases x with
  | error fault => exact ⟨nofun, fun ⟨_, h, _⟩ => nomatch h⟩
  | ok a => exact ⟨fun h => ⟨a, rfl, h⟩, fun ⟨_, rfl, h⟩ => h⟩

/-- A sequence of two calls does not fail in a way in which neither of them does. -/
theorem bind_ne_error {x : Except ε α} {f : α → Except ε β} {fault : ε}
    (hx : x ≠ .error fault) (hf : ∀ a, x = .ok a → f a ≠ .error fault) :
    x >>= f ≠ .error fault := by
  cases x with
  | error fault' => exact fun h => hx (congrArg Except.error (Except.error.inj h))
  | ok a => exact hf a rfl

theorem map_eq_ok_iff {x : Except ε α} {f : α → β} {b : β} :
    x.map f = .ok b ↔ ∃ a, x = .ok a ∧ f a = b := by
  cases x with
  | error fault => exact ⟨nofun, fun ⟨_, h, _⟩ => nomatch h⟩
  | ok a =>
    show Except.ok (f a) = .ok b ↔ _
    simp

variable {ε' : Type} {x : Except ε α} {f : ε → ε'}

theorem mapError_eq_ok_iff {a : α} : x.mapError f = .ok a ↔ x = .ok a := by
  cases x with
  | error cause => exact ⟨nofun, nofun⟩
  | ok a' =>
    show Except.ok a' = .ok a ↔ _
    simp

theorem mapError_eq_error_iff {e : ε'} :
    x.mapError f = .error e ↔ ∃ cause, x = .error cause ∧ f cause = e := by
  cases x with
  | error cause =>
    show Except.error (f cause) = .error e ↔ _
    simp
  | ok a => exact ⟨nofun, fun ⟨_, h, _⟩ => nomatch h⟩

end

/-- What the calls of a batch keep, the batch keeps. -/
theorem foldlM_ok_invariant_of_mem {P : σ → Prop} {f : σ → α → Except Fault σ} {as : List α}
    (hf : ∀ s, ∀ a ∈ as, ∀ s', P s → f s a = .ok s' → P s') {s s' : σ} (hs : P s)
    (h : as.foldlM f s = .ok s') : P s' := by
  induction as generalizing s with
  | nil => cases h; exact hs
  | cons a as ih =>
    rw [List.foldlM_cons] at h
    obtain ⟨s₁, h₁, h⟩ := bind_eq_ok_iff.1 h
    exact ih (fun s a ha => hf s a (.tail _ ha)) (hf s a (.head _) s₁ hs h₁) h

/-- What every call keeps, a batch of calls keeps. -/
theorem foldlM_ok_invariant {P : σ → Prop} {f : σ → α → Except Fault σ}
    (hf : ∀ s a s', P s → f s a = .ok s' → P s') {as : List α} {s s' : σ} (hs : P s)
    (h : as.foldlM f s = .ok s') : P s' :=
  foldlM_ok_invariant_of_mem (fun s a _ s' => hf s a s') hs h

/-- A batch does not fail in a way in which none of its calls does. -/
theorem foldlM_ne_error {P : σ → Prop} {f : σ → α → Except Fault σ} {fault : Fault}
    (hf : ∀ s a s', P s → f s a = .ok s' → P s') (hfault : ∀ s a, P s → f s a ≠ .error fault)
    {as : List α} {s : σ} (hs : P s) : as.foldlM f s ≠ .error fault := by
  induction as generalizing s with
  | nil => exact nofun
  | cons a as ih =>
    rw [List.foldlM_cons]
    exact bind_ne_error (hfault s a hs) fun s' h => ih (hf s a s' hs h)

/-- What every call records, a batch of calls records in order. -/
theorem foldlM_ok_record {r : σ → List α} {f : σ → α → Except Fault σ}
    (hf : ∀ s a s', f s a = .ok s' → r s' = r s ++ [a]) {as : List α} {s s' : σ}
    (h : as.foldlM f s = .ok s') : r s' = r s ++ as := by
  induction as generalizing s with
  | nil => cases h; simp
  | cons a as ih =>
    rw [List.foldlM_cons] at h
    obtain ⟨s₁, h₁, h⟩ := bind_eq_ok_iff.1 h
    rw [ih h, hf s a s₁ h₁, List.append_assoc]
    rfl

/-- Both succeed, with related results, or both fail. -/
inductive Agrees (R : α → β → Prop) : Option α → Except Fault β → Prop
  | ok {a : α} {b : β} (h : R a b) : Agrees R (some a) (.ok b)
  | error (fault : Fault) : Agrees R none (.error fault)

namespace Agrees

variable {R : α → β → Prop} {S : σ → τ → Prop}

theorem bind {x : Option α} {y : Except Fault β} {f : α → Option σ} {g : β → Except Fault τ}
    (h : Agrees R x y) (hfg : ∀ a b, R a b → Agrees S (f a) (g b)) :
    Agrees S (x.bind f) (y >>= g) := by
  cases h with
  | ok hab => exact hfg _ _ hab
  | error fault => exact .error fault

theorem map {x : Option α} {y : Except Fault β} {T : α → τ → Prop} {f : β → τ}
    (h : Agrees R x y) (hf : ∀ a b, R a b → T a (f b)) :
    Agrees T x (y >>= fun b => .ok (f b)) := by
  cases h with
  | ok hab => exact .ok (hf _ _ hab)
  | error fault => exact .error fault

/-- What is known of two successes may use that they are the outcomes. -/
theorem imp {x : Option α} {y : Except Fault β} {T : α → β → Prop} (h : Agrees R x y)
    (hT : ∀ a b, x = some a → y = .ok b → R a b → T a b) : Agrees T x y := by
  cases h with
  | ok hab => exact .ok (hT _ _ rfl rfl hab)
  | error fault => exact .error fault

theorem of_ok {x : Option α} {b : β} (h : Agrees R x (.ok b)) : ∃ a, x = some a ∧ R a b := by
  cases h with
  | ok hab => exact ⟨_, rfl, hab⟩

theorem of_some {y : Except Fault β} {a : α} (h : Agrees R (some a) y) : ∃ b, y = .ok b ∧ R a b := by
  cases h with
  | ok hab => exact ⟨_, rfl, hab⟩

end Agrees

end QueryCriteria
