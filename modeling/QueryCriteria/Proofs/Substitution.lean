import QueryCriteria.Proofs.Outline
import QueryCriteria.Proofs.Precedence
/-!
# Terms in place of comparisons

An expression in which terms stand in for the comparisons. It is spelled by the tokens of the terms,
each with the logical operator of the comparison that it stands in for, and reading goes along with
that (`Outline.read?_bind`). Under precedence its truth is that of the expression where every
comparison has the truth of its term (`Expression.holds_bind`). An expression with a hole is one of
options, where `none` stands in the hole.
-/

open QueryCriteria.DirectorySearch (Connective)

namespace QueryCriteria

variable {α β : Type}

/-! ## Trees -/

section
variable (σ : α → Term β)

mutual
/-- A term with terms in place of its comparisons. -/
def Term.bind : Term α → Term β
  | .leaf a => σ a
  | .group e => .group e.bind

/-- An expression with terms in place of its comparisons. -/
def Expression.bind : Expression α → Expression β
  | .single t => .single t.bind
  | .connected e c t => .connected e.bind c t.bind
end

def Slot.bind : Slot α → Slot β
  | .first => .first
  | .after e c => .after (e.bind σ) c

def Outline.bind (o : Outline α) : Outline β :=
  ⟨o.outer.map (Slot.bind σ), o.current.map (Expression.bind σ)⟩

/-- The tokens of what stands in for the comparison of a token, or the token itself. -/
def Token.bind : Token α → List (Token β)
  | .opening logical => [.opening logical]
  | .comparison logical a => (σ a).tokens logical
  | .closing => [.closing]

end

mutual
/-- Other comparisons in place of those of a term. -/
theorem Term.bind_leaf (f : α → β) : ∀ t : Term α, t.bind (fun a => .leaf (f a)) = t.map f
  | .leaf _ => rfl
  | .group e => congrArg Term.group (e.bind_leaf f)

theorem Expression.bind_leaf (f : α → β) :
    ∀ e : Expression α, e.bind (fun a => .leaf (f a)) = e.map f
  | .single t => congrArg Expression.single (t.bind_leaf f)
  | .connected e c t => by rw [Expression.bind, Expression.map, e.bind_leaf, t.bind_leaf]
end

theorem Token.flatMap_bind_leaf (f : α → β) (ts : List (Token α)) :
    ts.flatMap (Token.bind fun a => .leaf (f a)) = ts.map (Token.map f) := by
  rw [List.map_eq_flatMap]
  congr 1
  funext t
  cases t <;> rfl

/-! ## Reading -/

namespace Outline

variable (σ : α → Term β)

theorem slot?_bind (o : Outline α) (l : Logical) :
    (o.bind σ).slot? l = (o.slot? l).map (Slot.bind σ) := by
  obtain ⟨outer, current⟩ := o
  cases current <;> cases l <;> cases outer <;> rfl

theorem fill_bind (s : Slot α) (t : Term α) : (s.bind σ).fill (t.bind σ) = (s.fill t).bind σ := by
  cases s <;> rfl

/-- Where there is no place for a term, none is read. -/
theorem read?_tokens_eq_none {o : Outline α} {l : Logical} (h : o.slot? l = none) (t : Term α) :
    o.read? (t.tokens l) = none := by
  cases t with
  | leaf a => rw [Term.tokens, read?_comparison, h]; rfl
  | group e => rw [Term.tokens, List.cons_append, read?_opening, h]; rfl

/-- What stands in for the comparison of a token is read where the token is. -/
theorem read?_bind_token (o : Outline α) (t : Token α) :
    (o.bind σ).read? (t.bind σ) = (o.next? t).map (Outline.bind σ) := by
  cases t with
  | opening l =>
    rw [Token.bind, read?_opening, slot?_bind, next?]
    cases o.slot? l <;> rfl
  | comparison l a =>
    rw [Token.bind, next?]
    cases h : o.slot? l with
    | none => exact read?_tokens_eq_none (by rw [slot?_bind, h]; rfl) _
    | some s =>
      have hslot : (o.bind σ).slot? l = some (s.bind σ) := by rw [slot?_bind, h]; rfl
      rw [(σ a).read?_tokens hslot]
      have hfill := fill_bind σ s (.leaf a)
      exact congrArg (fun e => some (Outline.mk (o.outer.map (Slot.bind σ)) (some e))) hfill
  | closing =>
    obtain ⟨outer, current⟩ := o
    cases outer with
    | nil => rfl
    | cons s outer =>
      cases current with
      | none => rfl
      | some e =>
        have hfill := fill_bind σ s (.group e)
        exact congrArg (fun e' => some (Outline.mk (outer.map (Slot.bind σ)) (some e'))) hfill

/-- Reading goes along when terms stand in for the comparisons. -/
theorem read?_bind (o : Outline α) (ts : List (Token α)) :
    (o.bind σ).read? (ts.flatMap (Token.bind σ)) = (o.read? ts).map (Outline.bind σ) := by
  induction ts generalizing o with
  | nil => rfl
  | cons t ts ih =>
    rw [List.flatMap_cons, read?_append, read?_bind_token, read?_cons]
    cases o.next? t with
    | none => rfl
    | some o' => exact ih o'

/-- It goes along when other comparisons do. -/
theorem read?_map (f : α → β) (o : Outline α) (ts : List (Token α)) :
    (o.bind fun a => .leaf (f a)).read? (ts.map (Token.map f)) =
      (o.read? ts).map (Outline.bind fun a => .leaf (f a)) := by
  rw [← Token.flatMap_bind_leaf, read?_bind]

end Outline

/-! ## Holes -/

/-- What stands in an expression with a hole: the term in the hole, and comparisons elsewhere. -/
def Term.inHole (t : Term α) : Option α → Term α
  | none => t
  | some a => .leaf a

theorem Token.flatMap_inHole (t : Term α) (ts : List (Token α)) :
    (ts.map (Token.map some)).flatMap (Token.bind t.inHole) = ts := by
  induction ts with
  | nil => rfl
  | cons u ts ih =>
    rw [List.map_cons, List.flatMap_cons, ih]
    cases u <;> rfl

/-- Where an expression with a comparison is read, there is an expression with a hole that is read
with any term in place of the comparison. -/
theorem Outline.exists_inHole {ts us : List (Token α)} {l : Logical} {a : α}
    {e? : Option (Expression α)}
    (h : empty.read? (ts ++ .comparison l a :: us) = some ⟨[], e?⟩) :
    ∃ x? : Option (Expression (Option α)), ∀ t : Term α,
      empty.read? (ts ++ t.tokens l ++ us) = some ⟨[], x?.map (·.bind t.inHole)⟩ := by
  have hread (t : Term α) : empty.read? (ts ++ t.tokens l ++ us) =
      (empty.read? (ts.map (Token.map some) ++
        .comparison l none :: us.map (Token.map some))).map (Outline.bind t.inHole) := by
    rw [← read?_bind, List.flatMap_append, List.flatMap_cons, Token.flatMap_inHole,
      Token.flatMap_inHole, List.append_assoc]
    rfl
  have hleaf := hread (.leaf a)
  rw [Term.tokens, List.append_assoc, List.singleton_append, h] at hleaf
  obtain ⟨⟨outer, x?⟩, hx, heq⟩ := Option.map_eq_some_iff.1 hleaf.symm
  obtain rfl : outer = [] := List.map_eq_nil_iff.1 (congrArg Outline.outer heq)
  refine ⟨x?, fun t => ?_⟩
  rw [hread, hx]
  rfl

/-! ## Truth -/

section
variable {σ : α → Term β} {truth : β → Bool}

mutual
theorem Term.holds_bind :
    ∀ t : Term α, (t.bind σ).holds truth = t.holds fun a => (σ a).holds truth
  | .leaf _ => rfl
  | .group e => congrArg Level.value e.level_bind

theorem Expression.level_bind :
    ∀ e : Expression α, (e.bind σ).level truth = e.level fun a => (σ a).holds truth
  | .single t => congrArg Level.start.meet t.holds_bind
  | .connected e .and t => by
    rw [Expression.bind, Expression.level, Expression.level, e.level_bind, t.holds_bind]
  | .connected e .or t => by
    rw [Expression.bind, Expression.level, Expression.level, e.level_bind, t.holds_bind]
end

/-- Terms stand in for comparisons of the same truth. -/
theorem Expression.holds_bind (e : Expression α) :
    (e.bind σ).holds truth = e.holds fun a => (σ a).holds truth :=
  congrArg Level.value e.level_bind

theorem Expression.holds_map (f : α → β) (e : Expression α) :
    (e.map f).holds truth = e.holds (truth ∘ f) := by
  rw [← bind_leaf, holds_bind]
  rfl

end

end QueryCriteria
