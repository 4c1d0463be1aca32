import QueryCriteria.Proofs.EntityQuery.Condition
import QueryCriteria.Proofs.Valuation
/-!
# Where clauses by position

The truth value of a where clause, given one for each of its predicates in order, whichever of them
are the same (`whereValue`). The clause of an expression has the value of the expression
(`exists_whereValue`).
-/

namespace QueryCriteria

namespace EntityQuery

/-- The levels of the open groups after another fragment, and the truth values that are left for the
predicates behind it. -/
def Fragment.readNext (state : List Level × List Bool) (f : Fragment) : List Level × List Bool :=
  (f.read (fun _ => state.2.headD false) state.1,
    if f.predicate?.isSome then state.2.tail else state.2)

/-- The truth value of a where clause, given those of its predicates in order. -/
def whereValue (values : List Bool) (fragments : List Fragment) : Bool :=
  match (fragments.foldl Fragment.readNext ([.start], values)).1 with
  | [level] => level.value
  | _ => false

theorem readNext_eq (truth : Predicate → Bool) (f : Fragment) (levels : List Level)
    (rest : List Bool) : Fragment.readNext (levels, f.predicate?.toList.map truth ++ rest) f =
      (f.read truth levels, rest) := by
  cases f <;> rcases levels with _ | ⟨level, _ | ⟨next, outer⟩⟩ <;> rfl

/-- Where equal predicates have equal values, it is the value under the truth of predicates. -/
theorem whereValue_map (truth : Predicate → Bool) (fs : List Fragment) :
    whereValue ((fs.filterMap Fragment.predicate?).map truth) fs = whereHolds truth fs := by
  have hread (levels : List Level) :
      fs.foldl Fragment.readNext (levels, (fs.filterMap Fragment.predicate?).map truth) =
        (fs.foldl (Fragment.read truth) levels, []) := by
    induction fs generalizing levels with
    | nil => rfl
    | cons f fs ih =>
      have hvalues : ((f :: fs).filterMap Fragment.predicate?).map truth =
          f.predicate?.toList.map truth ++ (fs.filterMap Fragment.predicate?).map truth := by
        cases f <;> rfl
      rw [hvalues, List.foldl_cons, readNext_eq, ih, List.foldl_cons]
  have hlevels := congrArg Prod.fst (hread [.start])
  exact congrArg (fun | [level] => Level.value level | _ => false) hlevels

end EntityQuery

open EntityQuery (Predicate Fragment whereValue)

variable {α : Type}

section
variable (leaf : α → Predicate) (value : α → Bool)

mutual
theorem Term.foldl_readNext :
    ∀ (t : Term α) (level : Level) (outer : List Level) (rest : List Bool),
      (t.fragments leaf).foldl Fragment.readNext (level :: outer, t.leaves.map value ++ rest) =
        (level.meet (t.holds value) :: outer, rest)
  | .leaf _, _, _, _ => rfl
  | .group e, level, outer, rest => by
    -- The group has a level of its own, which becomes a term of the level around it.
    have he := e.foldl_readNext (level :: outer) rest
    rw [Term.fragments, Term.leaves, List.cons_append, List.foldl_cons, List.foldl_append]
    exact congrArg (List.foldl Fragment.readNext · [.closing]) he

/-- The fragments of an expression take the values of its comparisons. -/
theorem Expression.foldl_readNext :
    ∀ (e : Expression α) (outer : List Level) (rest : List Bool),
      (e.fragments leaf).foldl Fragment.readNext (.start :: outer, e.leaves.map value ++ rest) =
        (e.level value :: outer, rest)
  | .single t, outer, rest => t.foldl_readNext .start outer rest
  | .connected e c t, outer, rest => by
    rw [Expression.fragments, Expression.leaves, List.map_append, List.append_assoc,
      List.foldl_append, e.foldl_readNext, List.foldl_cons]
    cases c <;> exact t.foldl_readNext _ outer rest
end

theorem whereValue_fragments (e? : Option (Expression α)) :
    whereValue (e?.elim [] (·.leaves.map value)) (Outline.fragments leaf ⟨[], e?⟩) =
      e?.elim true (·.holds value) := by
  cases e? with
  | none => rfl
  | some e =>
    have hbody : Outline.fragments leaf ⟨[], some e⟩ = .whereWord :: e.fragments leaf := by
      simp [Outline.fragments, Outline.body, Outline.groupFragments]
    have hfirst : Fragment.readNext ([.start], e.leaves.map value) .whereWord =
        ([.start], e.leaves.map value) := rfl
    have hread := e.foldl_readNext leaf value [] []
    rw [List.append_nil] at hread
    rw [Option.elim_some, whereValue, hbody, List.foldl_cons, hfirst, hread]
    rfl

end

section
variable {β : Type} (leaf : β → Predicate) (f : α → β)

mutual
theorem Term.fragments_map : ∀ t : Term α, (t.map f).fragments leaf = t.fragments (leaf ∘ f)
  | .leaf _ => rfl
  | .group e => by rw [Term.map, Term.fragments, Term.fragments, e.fragments_map]

theorem Expression.fragments_map :
    ∀ e : Expression α, (e.map f).fragments leaf = e.fragments (leaf ∘ f)
  | .single t => t.fragments_map
  | .connected e c t => by
    rw [Expression.map, Expression.fragments, Expression.fragments, e.fragments_map,
      t.fragments_map]
end

end

/-- Where tokens are read as an expression, its where clause has the value of the expression that is
read from the values in place of the comparisons. -/
theorem exists_whereValue (leaf : α → Predicate) {ts : List (Token α)}
    {e? : Option (Expression α)} (h : Outline.empty.read? ts = some ⟨[], e?⟩) {values : List Bool}
    (hlength : values.length = (ts.filterMap Token.leaf?).length) :
    ∃ b? : Option (Expression Bool),
      Outline.empty.read? (Token.valued values ts) = some ⟨[], b?⟩ ∧
      whereValue values (Outline.fragments leaf ⟨[], e?⟩) = b?.elim true (·.holds id) := by
  obtain ⟨x?, rfl, rfl, hread⟩ := Outline.exists_valued h hlength
  refine ⟨_, hread, ?_⟩
  have hvalue := whereValue_fragments (leaf ∘ Prod.snd) Prod.fst x?
  cases x? with
  | none => exact hvalue
  | some x =>
    have hfragments : Outline.fragments leaf ⟨[], some (x.map Prod.snd)⟩ =
        Outline.fragments (leaf ∘ Prod.snd) ⟨[], some x⟩ := by
      simp [Outline.fragments, Outline.body, Outline.groupFragments, x.fragments_map]
    have hholds : (x.map Prod.fst).holds id = x.holds Prod.fst := x.holds_map Prod.fst
    exact (congrArg (whereValue _) hfragments).trans (hvalue.trans hholds.symm)

end QueryCriteria
