import QueryCriteria.EntityQuery.Draft
import QueryCriteria.Proofs.Outcome
import QueryCriteria.Proofs.Outline
/-!
# Where clauses

The fragments of an expression, and those of an outline: what a draft of an entity query has
written once it has read the outline. A draft takes a criterion exactly when the outline goes on
with its tokens (`addMarker_agrees`, `addRestriction_agrees`).
-/

open QueryCriteria.DirectorySearch (Connective)
open QueryCriteria.EntityQuery (Fragment Predicate)

namespace QueryCriteria

variable {α : Type} (leaf : α → Predicate)

/-! ## Fragments -/

/-- The word for a connective. -/
def DirectorySearch.Connective.fragment : Connective → Fragment
  | .and => .andWord
  | .or => .orWord

mutual
/-- The fragments of a term, given the predicates of its comparisons. -/
def Term.fragments : Term α → List Fragment
  | .leaf a => [.predicate (leaf a)]
  | .group e => .opening :: e.fragments ++ [.closing]

/-- The fragments of an expression, given the predicates of its comparisons. -/
def Expression.fragments : Expression α → List Fragment
  | .single t => t.fragments
  | .connected e c t => e.fragments ++ c.fragment :: t.fragments
end

/-- The fragments before a place in its level. -/
def Slot.fragments : Slot α → List Fragment
  | .first => []
  | .after e c => e.fragments leaf ++ [c.fragment]

theorem Slot.fragments_fill (s : Slot α) (t : Term α) :
    (s.fill t).fragments leaf = s.fragments leaf ++ t.fragments leaf := by
  cases s with
  | first => rfl
  | after e c => simp [Slot.fill, Slot.fragments, Expression.fragments]

namespace Outline

/-- The fragments that lead into open groups. -/
def groupFragments : List (Slot α) → List Fragment
  | [] => []
  | s :: outer => groupFragments outer ++ s.fragments leaf ++ [.opening]

/-- The fragments of what has been read, behind the word "where". -/
def body (o : Outline α) : List Fragment :=
  groupFragments leaf o.outer ++ o.current.elim [] (·.fragments leaf)

/-- The fragments of what has been read, if anything has. -/
def fragments (o : Outline α) : List Fragment :=
  if o.outer = [] ∧ o.current.isNone then [] else .whereWord :: o.body leaf

/-- A term is written behind its place. -/
theorem fragments_put (o : Outline α) (s : Slot α) (t : Term α) :
    (o.put s t).fragments leaf =
      .whereWord :: (groupFragments leaf o.outer ++ s.fragments leaf ++ t.fragments leaf) := by
  simp [put, fragments, body, Slot.fragments_fill]

/-- A group begins with its bracket. -/
theorem fragments_opened (s : Slot α) (outer : List (Slot α)) :
    fragments leaf ⟨s :: outer, none⟩ =
      .whereWord :: (groupFragments leaf outer ++ s.fragments leaf ++ [.opening]) := by
  simp [fragments, body, groupFragments]

/-- A group that is closed ends with its bracket. -/
theorem fragments_closed (s : Slot α) (outer : List (Slot α)) (e : Expression α) :
    fragments leaf ⟨outer, some (s.fill (.group e))⟩ =
      fragments leaf ⟨s :: outer, some e⟩ ++ [.closing] := by
  simp [fragments, body, groupFragments, Slot.fragments_fill, Term.fragments]

end Outline

/-! ## Brackets -/

/-- The brackets among fragments. -/
def EntityQuery.Fragment.brackets : Brackets Fragment where
  opens f := f == .opening
  closes f := f == .closing
  closes_of_opens f h := by simp_all

mutual
/-- Every term closes what it opens. -/
theorem Term.balanced_fragments :
    ∀ t : Term α, Fragment.brackets.Balanced (t.fragments leaf)
  | .leaf a => Brackets.balanced_of_forall (by simp [Term.fragments, Fragment.brackets])
  | .group e => (e.balanced_fragments.enclosed rfl rfl).balanced

theorem Expression.balanced_fragments :
    ∀ e : Expression α, Fragment.brackets.Balanced (e.fragments leaf)
  | .single t => t.balanced_fragments
  | .connected e c t => by
    have hc : Fragment.brackets.Balanced [c.fragment] :=
      Brackets.balanced_of_forall (by cases c <;> simp [Fragment.brackets, Connective.fragment])
    simpa [Expression.fragments] using e.balanced_fragments.append (hc.append t.balanced_fragments)
end

theorem Slot.balanced_fragments (s : Slot α) :
    Fragment.brackets.Balanced (s.fragments leaf) := by
  cases s with
  | first => exact Brackets.balanced_nil
  | after e c =>
    exact (e.balanced_fragments leaf).append (Brackets.balanced_of_forall
      (by cases c <;> simp [Fragment.brackets, Connective.fragment]))

namespace Outline

/-- What leads into open groups closes nothing that is not open. -/
theorem guarded_groupFragments (outer : List (Slot α)) :
    Fragment.brackets.Guarded (groupFragments leaf outer) := by
  induction outer with
  | nil => exact Brackets.guarded_nil
  | cons s outer ih =>
    exact (ih.append (s.balanced_fragments leaf).guarded).append
      (Brackets.Guarded.cons rfl Brackets.guarded_nil)

theorem guarded_fragments (o : Outline α) : Fragment.brackets.Guarded (o.fragments leaf) := by
  unfold fragments
  split
  · exact Brackets.guarded_nil
  · refine Brackets.Guarded.cons rfl ((guarded_groupFragments leaf o.outer).append ?_)
    cases o.current with
    | none => exact Brackets.guarded_nil
    | some e => exact (e.balanced_fragments leaf).guarded

/-- What leads into open groups opens as many as there are. -/
theorem count_groupFragments (outer : List (Slot α)) :
    (groupFragments leaf outer).count .opening =
      outer.length + (groupFragments leaf outer).count .closing := by
  induction outer with
  | nil => rfl
  | cons s outer ih =>
    have hs : (s.fragments leaf).count .closing = (s.fragments leaf).count .opening :=
      (s.balanced_fragments leaf).total
    simp only [groupFragments, List.count_append, List.length_cons, List.count_singleton, ih, hs]
    simp only [BEq.rfl, if_true, beq_iff_eq, reduceCtorEq, if_false, Nat.add_zero]
    omega

theorem count_fragments (o : Outline α) :
    (o.fragments leaf).count .opening = o.depth + (o.fragments leaf).count .closing := by
  obtain ⟨outer, current⟩ := o
  have hg := count_groupFragments leaf outer
  have hc : (current.elim [] (·.fragments leaf)).count .closing =
      (current.elim [] (·.fragments leaf)).count .opening := by
    cases current with
    | none => rfl
    | some e => exact (e.balanced_fragments leaf).total
  unfold fragments
  split
  · next h => obtain ⟨rfl, -⟩ := h; rfl
  · simp only [body, List.count_cons, List.count_append, hc, hg, depth]
    simp only [beq_iff_eq, reduceCtorEq, if_false, Nat.add_zero]
    omega

end Outline

/-! ## Predicates -/

/-- The predicate of a fragment that is one. -/
def EntityQuery.Fragment.predicate? : Fragment → Option Predicate
  | .predicate p => some p
  | _ => none

mutual
/-- The predicates of a term are those of its comparisons. -/
theorem Term.predicates_fragments :
    ∀ t : Term α, (t.fragments leaf).filterMap Fragment.predicate? = t.leaves.map leaf
  | .leaf a => rfl
  | .group e => by
    have ih := e.predicates_fragments
    simp [Term.fragments, Term.leaves, List.filterMap_cons, Fragment.predicate?, ih]

theorem Expression.predicates_fragments :
    ∀ e : Expression α, (e.fragments leaf).filterMap Fragment.predicate? = e.leaves.map leaf
  | .single t => t.predicates_fragments
  | .connected e c t => by
    have he := e.predicates_fragments
    have ht := t.predicates_fragments
    have hc : Fragment.predicate? c.fragment = none := by cases c <;> rfl
    simp [Expression.fragments, Expression.leaves, hc, he, ht]
end

namespace Outline

theorem predicates_groupFragments (outer : List (Slot α)) :
    (groupFragments leaf outer).filterMap Fragment.predicate? =
      (outer.reverse.flatMap fun s => s.before?.elim [] (·.leaves)).map leaf := by
  induction outer with
  | nil => rfl
  | cons s outer ih =>
    have hs : (s.fragments leaf).filterMap Fragment.predicate? =
        (s.before?.elim [] (·.leaves)).map leaf := by
      cases s with
      | first => rfl
      | after e c =>
        have he := e.predicates_fragments leaf
        cases c <;>
          simp [Slot.fragments, Slot.before?, List.filterMap_cons, Connective.fragment,
            Fragment.predicate?, he]
    simp [groupFragments, List.filterMap_cons, Fragment.predicate?, ih, hs]

/-- What has been written holds the predicates of the comparisons that have been read, in order. -/
theorem predicates_fragments (o : Outline α) :
    (o.fragments leaf).filterMap Fragment.predicate? = o.leaves.map leaf := by
  obtain ⟨outer, current⟩ := o
  have hbody : (body leaf ⟨outer, current⟩).filterMap Fragment.predicate? =
      (leaves ⟨outer, current⟩).map leaf := by
    cases current with
    | none => simp [body, leaves, predicates_groupFragments]
    | some e => simp [body, leaves, predicates_groupFragments, e.predicates_fragments]
  unfold fragments
  split
  · next h =>
    obtain ⟨rfl, hcurrent⟩ := h
    obtain rfl : current = none := Option.isNone_iff_eq_none.1 hcurrent
    rfl
  · simpa [List.filterMap_cons, Fragment.predicate?] using hbody

end Outline

/-! ## The last fragment -/

mutual
/-- A term ends in a predicate or in a closing bracket. -/
theorem Term.getLast?_fragments : ∀ t : Term α,
    ∃ f, (t.fragments leaf).getLast? = some f ∧ (f = .closing ∨ ∃ p, f = .predicate p)
  | .leaf a => ⟨_, rfl, .inr ⟨leaf a, rfl⟩⟩
  | .group e => ⟨.closing, by simp [Term.fragments, List.getLast?_cons], .inl rfl⟩

theorem Expression.getLast?_fragments : ∀ e : Expression α,
    ∃ f, (e.fragments leaf).getLast? = some f ∧ (f = .closing ∨ ∃ p, f = .predicate p)
  | .single t => t.getLast?_fragments
  | .connected e c t => by
    obtain ⟨f, hf, hends⟩ := t.getLast?_fragments
    exact ⟨f, by simp [Expression.fragments, List.getLast?_cons, hf], hends⟩
end

namespace Outline

/-- Behind a term no group has just been opened. -/
theorem getLast?_fragments_some (outer : List (Slot α)) (e : Expression α) :
    ∃ f, (fragments leaf ⟨outer, some e⟩).getLast? = some f ∧ f ≠ .opening := by
  obtain ⟨f, hf, hends⟩ := e.getLast?_fragments leaf
  refine ⟨f, by simp [fragments, body, List.getLast?_cons, List.getLast?_append, hf], ?_⟩
  rcases hends with rfl | ⟨p, rfl⟩ <;> simp

theorem getLast?_fragments_none (s : Slot α) (outer : List (Slot α)) :
    (fragments leaf ⟨s :: outer, none⟩).getLast? = some .opening := by
  simp [fragments, body, groupFragments, List.getLast?_cons]

/-! ## Closing what is open -/

/-- An expression in the innermost of open groups, with all of them closed. -/
def closeAll (e : Expression α) : List (Slot α) → Expression α
  | [] => e
  | s :: outer => closeAll (s.fill (.group e)) outer

/-- Closing only writes behind what there is. -/
theorem fragments_closeAll (outer : List (Slot α)) (e : Expression α) :
    groupFragments leaf outer ++ e.fragments leaf <+: (closeAll e outer).fragments leaf := by
  induction outer generalizing e with
  | nil => exact List.prefix_rfl
  | cons s outer ih =>
    refine List.IsPrefix.trans ⟨[.closing], ?_⟩ (ih (s.fill (.group e)))
    simp [groupFragments, Slot.fragments_fill, Term.fragments]

/-- Whatever has been read begins an expression. -/
theorem body_prefix [Inhabited α] (o : Outline α) :
    ∃ e : Expression α, o.body leaf <+: e.fragments leaf := by
  obtain ⟨outer, current⟩ := o
  cases current with
  | some e => exact ⟨closeAll e outer, fragments_closeAll leaf outer e⟩
  | none =>
    refine ⟨closeAll (.single (.leaf default)) outer, ?_⟩
    refine List.IsPrefix.trans ?_ (fragments_closeAll leaf outer _)
    simp [body]

end Outline

end QueryCriteria
