import QueryCriteria.Proofs.Expression
/-!
# Truth under precedence

The truth value of an expression whose "and" binds tighter than its "or": some run of terms between
"or"s holds throughout (`Expression.holds_eq`). Where no level mixes connectives, precedence does
not matter, and the value is that of the terms taken from the left (`Expression.folds_eq_holds`).
-/

open QueryCriteria.DirectorySearch (Connective)

namespace QueryCriteria

/-- What has been read of one level: whether a run before the last "or" holds, and whether the run
behind it does so far. -/
structure Level where
  before : Bool
  current : Bool

namespace Level

def start : Level := ⟨false, true⟩

/-- The level with another term in its run. -/
def meet (level : Level) (term : Bool) : Level := { level with current := level.current && term }

/-- The level behind another "or". -/
def next (level : Level) : Level := ⟨level.before || level.current, true⟩

def value (level : Level) : Bool := level.before || level.current

end Level

def DirectorySearch.Connective.join : Connective → Bool → Bool → Bool
  | .and => (· && ·)
  | .or => (· || ·)

variable {α : Type}

section
variable (truth : α → Bool)

mutual
/-- The truth value of a term, given those of its comparisons. -/
def Term.holds : Term α → Bool
  | .leaf a => truth a
  | .group e => e.level.value

/-- What has been read of an expression, given the truth values of its comparisons. -/
def Expression.level : Expression α → Level
  | .single t => Level.start.meet t.holds
  | .connected e .and t => e.level.meet t.holds
  | .connected e .or t => e.level.next.meet t.holds
end

/-- The truth value of an expression, given those of its comparisons. -/
def Expression.holds (e : Expression α) : Bool := (e.level truth).value

end

/-! ## Runs between "or"s -/

/-- The runs of terms before the last "or" of an expression, and the run behind it. -/
def Expression.runs : Expression α → List (List (Term α)) × List (Term α)
  | .single t => ([], [t])
  | .connected e .and t => (e.runs.1, e.runs.2 ++ [t])
  | .connected e .or t => (e.runs.1 ++ [e.runs.2], [t])

variable {truth : α → Bool}

theorem Expression.level_eq : ∀ e : Expression α,
    (e.level truth).before = e.runs.1.any (fun run => run.all (·.holds truth)) ∧
      (e.level truth).current = e.runs.2.all (·.holds truth)
  | .single t => by simp [level, runs, Level.meet, Level.start]
  | .connected e .and t => by simp [level, runs, Level.meet, e.level_eq]
  | .connected e .or t => by simp [level, runs, Level.meet, Level.next, e.level_eq]

/-- An expression holds when all terms of one of its runs do. -/
theorem Expression.holds_eq (e : Expression α) :
    e.holds truth = (e.runs.1 ++ [e.runs.2]).any fun run => run.all (·.holds truth) := by
  simp [holds, Level.value, e.level_eq]

/-! ## Levels without a mix -/

mutual
/-- Every group in the term has one connective only. -/
def Term.Unmixed : Term α → Prop
  | .leaf _ => True
  | .group e => ∃ c, e.Uses c

/-- The outermost level has no connective but the given one, and every group in it has one only. -/
def Expression.Uses (c : Connective) : Expression α → Prop
  | .single t => t.Unmixed
  | .connected e c' t => c' = c ∧ e.Uses c ∧ t.Unmixed
end

mutual
theorem Term.unmixed_map {β : Type} (f : α → β) : ∀ t : Term α, (t.map f).Unmixed ↔ t.Unmixed
  | .leaf _ => Iff.rfl
  | .group e => exists_congr fun c => e.uses_map f c

theorem Expression.uses_map {β : Type} (f : α → β) :
    ∀ (e : Expression α) (c : Connective), (e.map f).Uses c ↔ e.Uses c
  | .single t, _ => t.unmixed_map f
  | .connected e _ t, c => and_congr Iff.rfl (and_congr (e.uses_map f c) (t.unmixed_map f))
end

/-- Without an "or" there is no run but the last. -/
theorem Expression.level_before :
    ∀ e : Expression α, e.Uses .and → (e.level truth).before = false
  | .single _, _ => rfl
  | .connected e .and _, h => e.level_before h.2.1

theorem Expression.holds_single (t : Term α) : (single t).holds truth = t.holds truth := by
  simp [holds, level, Level.value, Level.meet, Level.start]

/-- Where a level has one connective only, a term behind it joins what is before it as a whole. -/
theorem Expression.holds_connected {e : Expression α} {c : Connective} (h : e.Uses c) (t : Term α) :
    (connected e c t).holds truth = c.join (e.holds truth) (t.holds truth) := by
  cases c with
  | and => simp [holds, level, Level.value, Level.meet, e.level_before h, Connective.join]
  | or => simp [holds, level, Level.value, Level.meet, Level.next, Connective.join]

/-! ## Truth from the left -/

section
variable (truth : α → Bool)

mutual
/-- The truth value of a term, when each connective joins all that is before it. -/
def Term.folds : Term α → Bool
  | .leaf a => truth a
  | .group e => e.folds

/-- The truth value of an expression, when each connective joins all that is before it. -/
def Expression.folds : Expression α → Bool
  | .single t => t.folds
  | .connected e c t => c.join e.folds t.folds
end

/-- The truth value of an expression behind a seed, which its first term narrows. -/
def Expression.foldsFrom (seed : Bool) : Expression α → Bool
  | .single t => seed && t.folds truth
  | .connected e c t => c.join (e.foldsFrom seed) (t.folds truth)

end

mutual
/-- Where no level mixes connectives, precedence makes no difference. -/
theorem Term.folds_eq_holds : ∀ t : Term α, t.Unmixed → t.folds truth = t.holds truth
  | .leaf _, _ => rfl
  | .group e, ⟨_, h⟩ => e.folds_eq_holds h

theorem Expression.folds_eq_holds :
    ∀ (e : Expression α) {c : Connective}, e.Uses c → e.folds truth = e.holds truth
  | .single t, _, h => by
    rw [Expression.holds_single]
    exact t.folds_eq_holds h
  | .connected e c t, _, ⟨rfl, he, ht⟩ => by
    rw [Expression.holds_connected he, Expression.folds, e.folds_eq_holds he, t.folds_eq_holds ht]
end

/-- An expression that is connected by "and" narrows the seed. -/
theorem Expression.foldsFrom_eq (seed : Bool) : ∀ e : Expression α, e.Uses .and →
    e.foldsFrom truth seed = (seed && e.holds truth)
  | .single t, h => by
    rw [foldsFrom, holds_single, t.folds_eq_holds h]
  | .connected e c t, ⟨hc, he, ht⟩ => by
    subst hc
    rw [holds_connected he, foldsFrom, e.foldsFrom_eq seed he, t.folds_eq_holds ht]
    exact Bool.and_assoc _ _ _

end QueryCriteria
