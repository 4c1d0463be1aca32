import QueryCriteria.Proofs.DirectorySearch.Condition
import QueryCriteria.Proofs.Spread
/-!
# Filters by position

The truth value of an expression whose terms are taken from the left, whatever their connectives
are. The filter of an expression, with a truth value for each of its comparisons in order, has that
value (`Outline.exists_holds`).
-/

open QueryCriteria.DirectorySearch (Connective Filter)

namespace QueryCriteria

variable {α β : Type}

/-! ## Truth from the left -/

section
variable {σ : α → Term β} {truth : β → Bool}

mutual
theorem Term.folds_bind :
    ∀ t : Term α, (t.bind σ).folds truth = t.folds fun a => (σ a).folds truth
  | .leaf _ => rfl
  | .group e => e.folds_bind

theorem Expression.folds_bind :
    ∀ e : Expression α, (e.bind σ).folds truth = e.folds fun a => (σ a).folds truth
  | .single t => t.folds_bind
  | .connected e c t => by
    rw [Expression.bind, Expression.folds, Expression.folds, e.folds_bind, t.folds_bind]
end

/-- Terms stand in for comparisons of the same truth. -/
theorem Expression.foldsFrom_bind (seed : Bool) : ∀ e : Expression α,
    (e.bind σ).foldsFrom truth seed = e.foldsFrom (fun a => (σ a).folds truth) seed
  | .single t => congrArg (seed && ·) t.folds_bind
  | .connected e c t => by
    rw [Expression.bind, foldsFrom, foldsFrom, e.foldsFrom_bind, t.folds_bind]

theorem Expression.foldsFrom_map (f : α → β) (seed : Bool) (e : Expression α) :
    (e.map f).foldsFrom truth seed = e.foldsFrom (truth ∘ f) seed := by
  rw [← bind_leaf, foldsFrom_bind]
  rfl

end

/-- In an expression with a hole, the term for a test stands for one comparison of its truth. -/
theorem ListTest.foldsFrom_inHole {test : ListTest} (seed value : Bool) (values : List Bool)
    (x : Expression (Option Bool)) :
    (x.bind (Term.spread test.connective value values).inHole).foldsFrom id seed =
      (x.bind (Term.leaf (test.holds (value :: values))).inHole).foldsFrom id seed := by
  have hspread : (Term.spread test.connective value values).folds id =
      test.holds (value :: values) := by
    rw [Term.folds_spread, List.map_id, id, foldl_join]
  rw [Expression.foldsFrom_bind, Expression.foldsFrom_bind]
  congr 1
  funext a?
  cases a? with
  | none => exact hspread
  | some a => rfl

/-! ## Filters -/

/-- Where tokens are read as an expression, its filter has the value of the expression that is read
from the values in place of the comparisons. -/
theorem Outline.exists_holds {leaf : α → Filter} {seed : Filter}
    (hleaf : ∀ a, (leaf a).IsComparison) (hseed : seed.comparisons = [])
    {ts : List (Token α)} {e? : Option (Expression α)} (h : empty.read? ts = some ⟨[], e?⟩)
    {values : List Bool} (hlength : values.length = (ts.filterMap Token.leaf?).length) :
    ∃ b? : Option (Expression Bool), empty.read? (Token.valued values ts) = some ⟨[], b?⟩ ∧
      ∀ carries, (topFilter leaf seed e?).holds carries values =
        b?.elim (seed.holds carries []) (·.foldsFrom id (seed.holds carries [])) := by
  obtain ⟨x?, rfl, rfl, hread⟩ := exists_valued h hlength
  refine ⟨_, hread, fun carries => ?_⟩
  rw [topFilter_map]
  cases x? with
  | none => rfl
  | some x =>
    have hfilter : (x.narrowed (leaf ∘ Prod.snd) seed).holds carries (x.leaves.map Prod.fst) =
        x.foldsFrom Prod.fst (seed.holds carries []) :=
      x.holds_narrowed (fun p => hleaf p.2) hseed
    have hmap : (x.map Prod.fst).foldsFrom id (seed.holds carries []) =
        x.foldsFrom Prod.fst (seed.holds carries []) :=
      x.foldsFrom_map Prod.fst (seed.holds carries [])
    exact hfilter.trans hmap.symm

end QueryCriteria
