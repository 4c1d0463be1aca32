import QueryCriteria.DirectorySearch.Filter
import QueryCriteria.Operator
import QueryCriteria.Proofs.Brackets
/-!
# Expressions

What a sequence of restrictions and brackets says, as a tree: terms joined by connectives, a term
being a comparison or an expression in brackets. A tree is spelled token by token.
-/

open QueryCriteria.DirectorySearch (Connective)

namespace QueryCriteria

/-! ## Trees -/

mutual
/-- A comparison, told by what stands for it, or an expression in brackets. -/
inductive Term (α : Type) where
  | leaf (a : α)
  | group (e : Expression α)

/-- Terms with a connective in front of each but the first; they group from the left. -/
inductive Expression (α : Type) where
  | single (t : Term α)
  | connected (e : Expression α) (c : Connective) (t : Term α)
end

variable {α : Type}

mutual
/-- The comparisons of a term, in order. -/
def Term.leaves : Term α → List α
  | .leaf a => [a]
  | .group e => e.leaves

/-- The comparisons of an expression, in order. -/
def Expression.leaves : Expression α → List α
  | .single t => t.leaves
  | .connected e _ t => e.leaves ++ t.leaves
end

mutual
/-- A term with other things standing for its comparisons. -/
def Term.map {β : Type} (f : α → β) : Term α → Term β
  | .leaf a => .leaf (f a)
  | .group e => .group (e.map f)

/-- An expression with other things standing for its comparisons. -/
def Expression.map {β : Type} (f : α → β) : Expression α → Expression β
  | .single t => .single (t.map f)
  | .connected e c t => .connected (e.map f) c (t.map f)
end

/-! ## Tokens -/

/-- The operator that a criterion carries for a connective. -/
def DirectorySearch.Connective.logical : Connective → Logical
  | .and => .and
  | .or => .or

/-- A step in the reading of criteria. A bracket that opens and a comparison come with the logical
operator they carry; on a bracket that closes it says nothing. -/
inductive Token (α : Type) where
  | opening (logical : Logical)
  | comparison (logical : Logical) (a : α)
  | closing

/-- What stands for the comparison of a token. -/
def Token.leaf? : Token α → Option α
  | .opening _ => none
  | .comparison _ a => some a
  | .closing => none

/-- A token with something else standing for its comparison. -/
def Token.map {β : Type} (f : α → β) : Token α → Token β
  | .opening logical => .opening logical
  | .comparison logical a => .comparison logical (f a)
  | .closing => .closing

theorem Token.leaves_map {β : Type} (f : α → β) (ts : List (Token α)) :
    (ts.map (Token.map f)).filterMap Token.leaf? = (ts.filterMap Token.leaf?).map f := by
  rw [List.filterMap_map, List.map_filterMap]
  congr 1
  funext t
  cases t <;> rfl

/-- The brackets among tokens. -/
def Token.brackets : Brackets (Token α) where
  opens
    | .opening _ => true
    | _ => false
  closes
    | .closing => true
    | _ => false
  closes_of_opens t h := by cases t <;> simp_all

mutual
/-- The tokens of a term that carries a logical operator. -/
def Term.tokens (logical : Logical) : Term α → List (Token α)
  | .leaf a => [.comparison logical a]
  | .group e => .opening logical :: e.tokens .undefined ++ [.closing]

/-- The tokens of an expression whose first term carries a logical operator. -/
def Expression.tokens (logical : Logical) : Expression α → List (Token α)
  | .single t => t.tokens logical
  | .connected e c t => e.tokens logical ++ t.tokens c.logical
end

mutual
/-- Every term closes what it opens. -/
theorem Term.balanced_tokens : ∀ (t : Term α) (l : Logical), Token.brackets.Balanced (t.tokens l)
  | .leaf a, l => Brackets.balanced_of_forall (by simp [Term.tokens, Token.brackets])
  | .group e, l => ((e.balanced_tokens .undefined).enclosed rfl rfl).balanced

theorem Expression.balanced_tokens :
    ∀ (e : Expression α) (l : Logical), Token.brackets.Balanced (e.tokens l)
  | .single t, l => t.balanced_tokens l
  | .connected e _ t, l => (e.balanced_tokens l).append (t.balanced_tokens _)
end

mutual
/-- The tokens of a term bring its comparisons. -/
theorem Term.leaves_tokens :
    ∀ (t : Term α) (l : Logical), (t.tokens l).filterMap Token.leaf? = t.leaves
  | .leaf a, l => rfl
  | .group e, l => by
    have ih := e.leaves_tokens .undefined
    simp [Term.tokens, Term.leaves, List.filterMap_cons, Token.leaf?, ih]

theorem Expression.leaves_tokens :
    ∀ (e : Expression α) (l : Logical), (e.tokens l).filterMap Token.leaf? = e.leaves
  | .single t, l => t.leaves_tokens l
  | .connected e c t, l => by
    have he := e.leaves_tokens l
    have ht := t.leaves_tokens c.logical
    simp [Expression.tokens, Expression.leaves, he, ht]
end

mutual
theorem Term.tokens_map {β : Type} (f : α → β) :
    ∀ (t : Term α) (l : Logical), (t.map f).tokens l = (t.tokens l).map (Token.map f)
  | .leaf a, l => rfl
  | .group e, l => by
    have ih := e.tokens_map f .undefined
    simp [Term.map, Term.tokens, Token.map, ih]

theorem Expression.tokens_map {β : Type} (f : α → β) :
    ∀ (e : Expression α) (l : Logical), (e.map f).tokens l = (e.tokens l).map (Token.map f)
  | .single t, l => t.tokens_map f l
  | .connected e c t, l => by
    have he := e.tokens_map f l
    have ht := t.tokens_map f c.logical
    simp [Expression.map, Expression.tokens, he, ht]
end

end QueryCriteria
