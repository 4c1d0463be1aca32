import QueryCriteria.Proofs.EntityQuery.WhereClause
import QueryCriteria.Proofs.Precedence
/-!
# The condition of a where clause

A where clause as a condition on its predicates, read fragment by fragment with "and" binding
tighter than "or". The clause of an expression is true when the expression holds
(`whereHolds_fragments`).
-/

namespace QueryCriteria

namespace EntityQuery

/-- The levels of the open groups after another fragment, the innermost first. -/
def Fragment.read (truth : Predicate → Bool) : List Level → Fragment → List Level
  | level :: outer, .orWord => level.next :: outer
  | levels, .opening => .start :: levels
  | level :: next :: outer, .closing => next.meet level.value :: outer
  | level :: outer, .predicate p => level.meet (truth p) :: outer
  | levels, _ => levels

/-- The truth value of a where clause, given those of its predicates. One that is absent is true. -/
def whereHolds (truth : Predicate → Bool) (fragments : List Fragment) : Bool :=
  match fragments.foldl (Fragment.read truth) [.start] with
  | [level] => level.value
  | _ => false

end EntityQuery

open EntityQuery (Predicate Fragment whereHolds)

variable {α : Type} (leaf : α → Predicate) (truth : Predicate → Bool)

mutual
theorem Term.foldl_fragments : ∀ (t : Term α) (level : Level) (outer : List Level),
    (t.fragments leaf).foldl (Fragment.read truth) (level :: outer) =
      level.meet (t.holds (truth ∘ leaf)) :: outer
  | .leaf _, _, _ => rfl
  | .group e, level, outer => by
    -- The group has a level of its own, which becomes a term of the level around it.
    have he := e.foldl_fragments (level :: outer)
    rw [Term.fragments, List.cons_append, List.foldl_cons, List.foldl_append]
    simp only [Fragment.read, he]
    rfl

/-- The fragments of an expression read as what has been read of it. -/
theorem Expression.foldl_fragments : ∀ (e : Expression α) (outer : List Level),
    (e.fragments leaf).foldl (Fragment.read truth) (.start :: outer) =
      e.level (truth ∘ leaf) :: outer
  | .single t, outer => t.foldl_fragments .start outer
  | .connected e c t, outer => by
    rw [Expression.fragments, List.foldl_append, e.foldl_fragments, List.foldl_cons]
    cases c <;> exact t.foldl_fragments _ outer
end

theorem whereHolds_fragments (e? : Option (Expression α)) :
    whereHolds truth (Outline.fragments leaf ⟨[], e?⟩) = e?.elim true (·.holds (truth ∘ leaf)) := by
  cases e? with
  | none => rfl
  | some e =>
    have hbody : Outline.fragments leaf ⟨[], some e⟩ = .whereWord :: e.fragments leaf := by
      simp [Outline.fragments, Outline.body, Outline.groupFragments]
    rw [whereHolds, hbody, List.foldl_cons]
    simp only [Fragment.read, e.foldl_fragments]
    rfl

end QueryCriteria
