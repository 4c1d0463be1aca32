import QueryCriteria.Proofs.DirectorySearch.Selection
import QueryCriteria.Proofs.Precedence
/-!
# The condition of a filter

A filter as a condition on its comparisons, each with a truth value of its own. The filter of an
expression joins its terms from the left, whatever their connectives are (`holds_filter_eq_folds`).
Where no level of the expression mixes connectives, it is true when the expression holds
(`holds_topFilter`).
-/

open QueryCriteria.DirectorySearch (Connective Filter)

namespace QueryCriteria

namespace DirectorySearch

/-- The truth value of a filter, given those of its comparisons in order and the object classes that
an entry carries. -/
def Filter.holds (carries : String → Bool) : Filter → List Bool → Bool
  | .objectClasses classes, _ => classes.all carries
  | .compare _ _ _, values => values.headD false
  | .group connective left right, values =>
    connective.join (left.holds carries (values.take left.comparisons.length))
      (right.holds carries (values.drop left.comparisons.length))

theorem Filter.holds_group {carries : String → Bool} {connective : Connective}
    {left right : Filter} {values values' : List Bool}
    (h : values.length = left.comparisons.length) :
    (group connective left right).holds carries (values ++ values') =
      connective.join (left.holds carries values) (right.holds carries values') := by
  rw [holds, List.take_left' h, List.drop_left' h]

/-- An entry is selected when the filter is true of the comparisons that hold of the entry. -/
theorem Filter.selects_eq_holds (entry : Entry) (f : Filter) :
    f.selects entry = f.holds entry.carries (f.comparisons.map (·.selects entry)) := by
  induction f with
  | objectClasses classes => rfl
  | compare attributeName assertion value => rfl
  | group connective left right hleft hright =>
    rw [comparisons, List.map_append, holds_group (List.length_map _), ← hleft, ← hright]
    cases connective <;> rfl

/-- The object classes at the root are true when all of the mapping hold. -/
theorem Mapping.holds_seed {mapping : Mapping} {carries : String → Bool} :
    mapping.seed.holds carries [] = true ↔
      ∀ name ∈ mapping.objectClasses, Text.trim name ≠ "" → carries (Text.trim name) = true := by
  simp only [seed, Filter.holds, List.all_eq_true, mem_distinctClasses]
  constructor
  · intro h name hname hblank
    exact h _ ⟨hblank, name, hname, rfl⟩
  · rintro h _ ⟨hblank, name, hname, rfl⟩
    exact h name hname hblank

theorem Filter.IsComparison.holds_eq {f : Filter} (h : f.IsComparison) (carries : String → Bool)
    (value : Bool) : f.holds carries [value] = value := by
  cases f with
  | compare => rfl
  | objectClasses | group => cases h

end DirectorySearch

variable {α : Type}

/-! ## Filters of expressions -/

variable {leaf : α → Filter} {carries : String → Bool} {value : α → Bool}

mutual
theorem Term.holds_filter_eq_folds (hleaf : ∀ a, (leaf a).IsComparison) :
    ∀ t : Term α, (t.filter leaf).holds carries (t.leaves.map value) = t.folds value
  | .leaf a => (hleaf a).holds_eq carries (value a)
  | .group e => e.holds_filter_eq_folds hleaf

/-- The filter of an expression joins from the left. -/
theorem Expression.holds_filter_eq_folds (hleaf : ∀ a, (leaf a).IsComparison) :
    ∀ e : Expression α, (e.filter leaf).holds carries (e.leaves.map value) = e.folds value
  | .single t => t.holds_filter_eq_folds hleaf
  | .connected e c t => by
    have hlength : (e.leaves.map value).length = (e.filter leaf).comparisons.length := by
      rw [e.comparisons_filter fun a => (hleaf a).comparisons_eq, List.length_map, List.length_map]
    rw [Expression.filter, Expression.leaves, List.map_append, Filter.holds_group hlength,
      e.holds_filter_eq_folds hleaf, t.holds_filter_eq_folds hleaf, Expression.folds]
end

variable {seed : Filter}

theorem Expression.holds_narrowed (hleaf : ∀ a, (leaf a).IsComparison)
    (hseed : seed.comparisons = []) : ∀ e : Expression α,
      (e.narrowed leaf seed).holds carries (e.leaves.map value) =
        e.foldsFrom value (seed.holds carries [])
  | .single t => by
    -- The seed takes none of the truth values, so that all are left for the term.
    have hlength : ([] : List Bool).length = seed.comparisons.length := by rw [hseed]; rfl
    have ht : (t.filter leaf).holds carries (t.leaves.map value) = t.folds value :=
      t.holds_filter_eq_folds hleaf
    rw [foldsFrom, ← ht]
    exact Filter.holds_group hlength
  | .connected e c t => by
    have hlength : (e.leaves.map value).length = (e.narrowed leaf seed).comparisons.length := by
      rw [e.comparisons_narrowed (fun a => (hleaf a).comparisons_eq) hseed, List.length_map,
        List.length_map]
    rw [narrowed, leaves, List.map_append, Filter.holds_group hlength,
      e.holds_narrowed hleaf hseed, t.holds_filter_eq_folds hleaf, foldsFrom]

/-- The filter at the top is true when its seed is and what there is of an expression holds. -/
theorem holds_topFilter {truth : α → Bool} (hleaf : ∀ a, (leaf a).IsComparison)
    (hseed : seed.comparisons = []) {e? : Option (Expression α)}
    (h : ∀ e, e? = some e → e.Uses .and) :
    (topFilter leaf seed e?).holds carries (e?.elim [] fun e => e.leaves.map truth) =
      (seed.holds carries [] && e?.elim true (·.holds truth)) := by
  cases e? with
  | none => exact (Bool.and_true _).symm
  | some e => exact (e.holds_narrowed hleaf hseed).trans (e.foldsFrom_eq _ (h e rfl))

end QueryCriteria
