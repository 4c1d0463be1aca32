import QueryCriteria.Proofs.Expression
/-!
# Outlines

An expression that is being read: the groups that are open and what has been read of each level.
`Outline.next?` reads one token and fails where no expression goes on in this way. Reading keeps
what it has read (`Outline.tokens_next?`), and reads every expression (`Expression.read?_tokens`),
so that tokens spell one expression at most (`Expression.tokens_inj`).
-/

open QueryCriteria.DirectorySearch (Connective)

namespace QueryCriteria

/-- A place for a term in its level. -/
inductive Slot (α : Type) where
  | first
  | after (e : Expression α) (c : Connective)

/-- An expression that is being read. -/
structure Outline (α : Type) where
  /-- The places of the open groups, each in the level around it, the innermost first. -/
  outer : List (Slot α)
  /-- What has been read of the innermost level. -/
  current : Option (Expression α)

variable {α : Type}

namespace Slot

/-- The level with a term in the place. -/
def fill : Slot α → Term α → Expression α
  | .first, t => .single t
  | .after e c, t => .connected e c t

/-- What stands before the place in its level. -/
def before? : Slot α → Option (Expression α)
  | .first => none
  | .after e _ => some e

/-- The logical operator that a term in the place carries, given the one for a first term. -/
def lead (logical : Logical) : Slot α → Logical
  | .first => logical
  | .after _ c => c.logical

/-- The tokens before the place in its level. -/
def tokens (logical : Logical) : Slot α → List (Token α)
  | .first => []
  | .after e _ => e.tokens logical

theorem tokens_fill (s : Slot α) (t : Term α) (l : Logical) :
    (s.fill t).tokens l = s.tokens l ++ t.tokens (s.lead l) := by
  cases s <;> rfl

theorem balanced_tokens (s : Slot α) (l : Logical) : Token.brackets.Balanced (s.tokens l) := by
  cases s with
  | first => exact Brackets.balanced_nil
  | after e c => exact e.balanced_tokens l

end Slot

namespace Outline

/-- The outline before anything is read. -/
def empty : Outline α := ⟨[], none⟩

/-- The number of open groups. -/
def depth (o : Outline α) : Nat := o.outer.length

/-- The outline with another term in the innermost level. -/
def put (o : Outline α) (s : Slot α) (t : Term α) : Outline α := ⟨o.outer, some (s.fill t)⟩

/-- The place of a next term that carries a logical operator. The first term of all may carry any,
the first of a group must carry none, and every other one needs a connective. -/
def slot? (o : Outline α) (logical : Logical) : Option (Slot α) :=
  match o.current, logical with
  | none, .undefined => some .first
  | none, _ => if o.outer.isEmpty then some .first else none
  | some e, .and => some (.after e .and)
  | some e, .or => some (.after e .or)
  | some _, .undefined => none

/-- The outline after another token. -/
def next? (o : Outline α) : Token α → Option (Outline α)
  | .opening logical => (o.slot? logical).map fun s => ⟨s :: o.outer, none⟩
  | .comparison logical a => (o.slot? logical).map fun s => o.put s (.leaf a)
  | .closing =>
    match o.outer, o.current with
    | s :: outer, some e => some ⟨outer, some (s.fill (.group e))⟩
    | _, _ => none

/-- The outline after more tokens. -/
def read? (o : Outline α) (tokens : List (Token α)) : Option (Outline α) := tokens.foldlM next? o

@[simp] theorem read?_nil (o : Outline α) : o.read? [] = some o := rfl

@[simp] theorem read?_cons (o : Outline α) (t : Token α) (ts : List (Token α)) :
    o.read? (t :: ts) = (o.next? t).bind (read? · ts) := rfl

theorem read?_append (o : Outline α) (ts us : List (Token α)) :
    o.read? (ts ++ us) = (o.read? ts).bind (read? · us) := by
  simp only [read?, List.foldlM_append]
  rfl

theorem read?_opening (o : Outline α) (l : Logical) (ts : List (Token α)) :
    o.read? (.opening l :: ts) = (o.slot? l).bind fun s => read? ⟨s :: o.outer, none⟩ ts := by
  cases h : o.slot? l <;> simp [next?, h]

theorem read?_comparison (o : Outline α) (l : Logical) (a : α) (ts : List (Token α)) :
    o.read? (.comparison l a :: ts) = (o.slot? l).bind fun s => (o.put s (.leaf a)).read? ts := by
  cases h : o.slot? l <;> simp [next?, h]

/-- A place for a term stands behind all that has been read of its level. -/
theorem before?_of_slot? {o : Outline α} {l : Logical} {s : Slot α} (h : o.slot? l = some s) :
    s.before? = o.current := by
  obtain ⟨outer, current⟩ := o
  cases current <;> cases l <;> simp [slot?] at h <;> grind [Slot.before?]

/-! ## Reading an expression -/

/-- A level begins with any logical operator that its first place allows. -/
theorem slot?_start {o : Outline α} (h : o.current = none) :
    o.slot? .undefined = some .first := by
  simp [slot?, h]

theorem slot?_connected (outer : List (Slot α)) (e : Expression α) (c : Connective) :
    slot? ⟨outer, some e⟩ c.logical = some (.after e c) := by
  cases c <;> rfl

end Outline

mutual
/-- A term is read into its place. -/
theorem Term.read?_tokens : ∀ (t : Term α) {o : Outline α} {l : Logical} {s : Slot α},
    o.slot? l = some s → o.read? (t.tokens l) = some (o.put s t)
  | .leaf a, o, l, s, h => by simp [Term.tokens, Outline.next?, h]
  | .group e, o, l, s, h => by
    have he := e.read?_tokens (o := ⟨s :: o.outer, none⟩) rfl (Outline.slot?_start rfl)
    simp only [Term.tokens, List.cons_append, Outline.read?_cons, Outline.next?, h, Option.map_some,
      Option.bind_some, Outline.read?_append, he]
    rfl

/-- An expression is read into an empty level. -/
theorem Expression.read?_tokens : ∀ (e : Expression α) {o : Outline α} {l : Logical},
    o.current = none → o.slot? l = some .first → o.read? (e.tokens l) = some ⟨o.outer, some e⟩
  | .single t, o, l, _, h => t.read?_tokens h
  | .connected e c t, o, l, ho, h => by
    have ht := t.read?_tokens (Outline.slot?_connected o.outer e c)
    simp only [Expression.tokens, Outline.read?_append, e.read?_tokens ho h, Option.bind_some, ht]
    rfl
end

/-- An expression is read from the beginning, whatever logical operator it begins with. -/
theorem Expression.read?_tokens_empty (e : Expression α) (l : Logical) :
    Outline.empty.read? (e.tokens l) = some ⟨[], some e⟩ :=
  e.read?_tokens rfl (by cases l <;> rfl)

/-- Tokens spell one expression at most. -/
theorem Expression.tokens_inj {e e' : Expression α} {l l' : Logical}
    (h : e.tokens l = e'.tokens l') : e = e' := by
  have he := e.read?_tokens_empty l
  rw [h, e'.read?_tokens_empty] at he
  simpa using he.symm

theorem Expression.tokens_ne_nil (e : Expression α) (l : Logical) : e.tokens l ≠ [] := by
  intro h
  have he := e.read?_tokens_empty l
  rw [h] at he
  cases he

theorem elim_tokens_map {β : Type} (f : α → β) (e? : Option (Expression α)) (l : Logical) :
    (e?.map (·.map f)).elim [] (·.tokens l) = (e?.elim [] (·.tokens l)).map (Token.map f) := by
  cases e? with
  | none => rfl
  | some e => exact e.tokens_map f l

/-- The tokens of what there is of an expression tell it. -/
theorem elim_tokens_inj {e? e?' : Option (Expression α)} {l l' : Logical}
    (h : e?.elim [] (·.tokens l) = e?'.elim [] (·.tokens l')) : e? = e?' := by
  cases e? with
  | none =>
    cases e?' with
    | none => rfl
    | some e' => exact absurd h.symm (e'.tokens_ne_nil l')
  | some e =>
    cases e?' with
    | none => exact absurd h (e.tokens_ne_nil l)
    | some e' => rw [Expression.tokens_inj h]

namespace Outline

/-! ## What has been read -/

/-- The logical operator of the first term of a level, given the one at the top. -/
def levelLead (logical : Logical) : List (Slot α) → Logical
  | [] => logical
  | _ :: _ => .undefined

/-- The tokens that lead into open groups, when the first of all carries a logical operator. -/
def groupTokens (logical : Logical) : List (Slot α) → List (Token α)
  | [] => []
  | s :: outer =>
    groupTokens logical outer ++ s.tokens (levelLead logical outer) ++
      [.opening (s.lead (levelLead logical outer))]

/-- The tokens that have been read. -/
def tokens (logical : Logical) (o : Outline α) : List (Token α) :=
  groupTokens logical o.outer ++ o.current.elim [] (·.tokens (levelLead logical o.outer))

/-- A place is found behind what has been read, for a term that carries the operator due there. -/
theorem tokens_slot? {o : Outline α} {l : Logical} {s : Slot α} (h : o.slot? l = some s)
    (l₀ : Logical) : ∃ l₁, o.tokens l₀ = groupTokens l₁ o.outer ++ s.tokens (levelLead l₁ o.outer) ∧
      s.lead (levelLead l₁ o.outer) = l := by
  obtain ⟨outer, current⟩ := o
  cases current with
  | some e =>
    refine ⟨l₀, ?_⟩
    cases l <;> simp only [slot?, Option.some.injEq, reduceCtorEq] at h <;> subst h <;>
      exact ⟨rfl, rfl⟩
  | none =>
    cases outer with
    | nil =>
      -- Nothing has been read, so the operator at the top is still free.
      obtain rfl : s = .first := by cases l <;> simpa [slot?, eq_comm] using h
      exact ⟨l, rfl, rfl⟩
    | cons s' outer =>
      obtain ⟨rfl, rfl⟩ : l = .undefined ∧ s = .first := by
        cases l <;> simp [slot?] at h
        exact ⟨rfl, h.symm⟩
      exact ⟨l₀, rfl, rfl⟩

/-- Reading a token puts it behind what has been read. -/
theorem tokens_next? {o o' : Outline α} {t : Token α} (h : o.next? t = some o') (l : Logical) :
    ∃ l', o'.tokens l' = o.tokens l ++ [t] := by
  cases t with
  | opening lt =>
    obtain ⟨s, hs, rfl⟩ := Option.map_eq_some_iff.1 h
    obtain ⟨l', ho, rfl⟩ := tokens_slot? hs l
    exact ⟨l', by rw [ho]; simp [tokens, groupTokens]⟩
  | comparison lt a =>
    obtain ⟨s, hs, rfl⟩ := Option.map_eq_some_iff.1 h
    obtain ⟨l', ho, rfl⟩ := tokens_slot? hs l
    exact ⟨l', by rw [ho]; simp [put, tokens, Slot.tokens_fill, Term.tokens]⟩
  | closing =>
    obtain ⟨outer, current⟩ := o
    match outer, current with
    | s :: outer, some e =>
      obtain rfl : (⟨outer, some (s.fill (.group e))⟩ : Outline α) = o' := by simpa [next?] using h
      exact ⟨l, by simp [tokens, groupTokens, Slot.tokens_fill, Term.tokens, levelLead]⟩
    | [], _ | _ :: _, none => simp [next?] at h

/-- What has been read of the top level: all of it, or what stands before the group that has been
open longest. -/
def topLevel? (o : Outline α) : Option (Expression α) :=
  match o.outer.getLast? with
  | none => o.current
  | some s => s.before?

/-- A group that is opened is no part of the top level yet. -/
theorem topLevel?_opened {o : Outline α} {l : Logical} {s : Slot α} (h : o.slot? l = some s)
    (current : Option (Expression α)) : topLevel? ⟨s :: o.outer, current⟩ = o.topLevel? := by
  obtain ⟨outer, before⟩ := o
  cases outer with
  | nil => exact before?_of_slot? h
  | cons s' outer => simp [topLevel?, List.getLast?_cons]

/-- Behind what has been read of the top level comes the group that has been open longest. -/
theorem groupTokens_eq (l : Logical) {outer : List (Slot α)} (h : outer ≠ []) :
    ∃ l' rest, groupTokens l outer =
      (outer.getLast h).tokens l ++ .opening l' :: rest ∧ Token.brackets.Guarded rest := by
  -- The innermost group is the head of the list and only adds to what is behind the bracket.
  induction outer with
  | nil => exact absurd rfl h
  | cons s outer ih =>
    cases outer with
    | nil => exact ⟨_, [], rfl, Brackets.guarded_nil⟩
    | cons s' outer =>
      obtain ⟨l', rest, heq, hrest⟩ := ih (List.cons_ne_nil s' outer)
      refine ⟨l', rest ++ s.tokens .undefined ++ [.opening (s.lead .undefined)], ?_, ?_⟩
      · rw [groupTokens, heq, List.getLast_cons (List.cons_ne_nil s' outer)]
        simp [levelLead]
      · exact (hrest.append (s.balanced_tokens _).guarded).append
          (Brackets.Guarded.cons rfl Brackets.guarded_nil)

/-- What has been read is the top level, and behind it an open group if there is one. -/
theorem tokens_eq_topLevel (o : Outline α) (l : Logical) :
    ∃ rest, o.tokens l = o.topLevel?.elim [] (·.tokens l) ++ rest ∧
      (o.depth = 0 → rest = []) ∧
      (0 < o.depth → ∃ l' inner, rest = .opening l' :: inner ∧ Token.brackets.Guarded inner) := by
  obtain ⟨outer, current⟩ := o
  cases outer with
  | nil => exact ⟨[], by simp [tokens, groupTokens, topLevel?, levelLead], by simp, by simp [depth]⟩
  | cons s outer =>
    obtain ⟨l', inner, heq, hinner⟩ := groupTokens_eq l (List.cons_ne_nil s outer)
    refine ⟨.opening l' :: (inner ++ current.elim [] (·.tokens .undefined)), ?_, by simp [depth],
      fun _ => ⟨l', _, rfl, hinner.append ?_⟩⟩
    · have htop : ∀ s : Slot α, s.tokens l = s.before?.elim [] (·.tokens l) := fun s => by
        cases s <;> rfl
      rw [tokens, heq, htop]
      simp [topLevel?, List.getLast?_eq_some_getLast, levelLead]
    · cases current with
      | none => exact Brackets.guarded_nil
      | some e => exact (e.balanced_tokens _).guarded

/-- Reading puts all that it reads behind what has been read. -/
theorem tokens_read? {o o' : Outline α} {ts : List (Token α)} (h : o.read? ts = some o')
    (l : Logical) : ∃ l', o'.tokens l' = o.tokens l ++ ts := by
  induction ts generalizing o l with
  | nil =>
    obtain rfl : o = o' := by simpa using h
    exact ⟨l, by simp⟩
  | cons t ts ih =>
    obtain ⟨o₁, h₁, h⟩ := Option.bind_eq_some_iff.1 h
    obtain ⟨l₁, e₁⟩ := tokens_next? h₁ l
    obtain ⟨l', e⟩ := ih h l₁
    exact ⟨l', by rw [e, e₁, List.append_assoc]; rfl⟩

/-- What has been read is a whole expression when no group is open. -/
theorem elim_tokens_of_read? {ts : List (Token α)} {e? : Option (Expression α)}
    (h : empty.read? ts = some ⟨[], e?⟩) : ∃ l, e?.elim [] (·.tokens l) = ts := by
  obtain ⟨l, hl⟩ := tokens_read? h .undefined
  exact ⟨l, hl⟩

/-! ## Comparisons -/

/-- The comparisons that have been read, in order. -/
def leaves (o : Outline α) : List α :=
  o.outer.reverse.flatMap (fun s => s.before?.elim [] (·.leaves)) ++
    o.current.elim [] (·.leaves)

/-- A group that is opened stands behind the comparisons that have been read. -/
theorem leaves_opened {o : Outline α} {l : Logical} {s : Slot α} (h : o.slot? l = some s)
    (current : Option (Expression α)) :
    leaves ⟨s :: o.outer, current⟩ = o.leaves ++ current.elim [] (·.leaves) := by
  simp [leaves, before?_of_slot? h]

theorem leaves_groupTokens (l : Logical) (outer : List (Slot α)) :
    (groupTokens l outer).filterMap Token.leaf? =
      outer.reverse.flatMap fun s => s.before?.elim [] (·.leaves) := by
  induction outer with
  | nil => rfl
  | cons s outer ih =>
    have hs : ∀ l, (s.tokens l).filterMap Token.leaf? = s.before?.elim [] (·.leaves) := fun l => by
      cases s with
      | first => rfl
      | after e c => exact e.leaves_tokens l
    simp [groupTokens, List.filterMap_cons, Token.leaf?, ih, hs]

/-- The tokens that have been read bring the comparisons. -/
theorem leaves_tokens (l : Logical) (o : Outline α) :
    (o.tokens l).filterMap Token.leaf? = o.leaves := by
  have hc : (o.current.elim [] (·.tokens (levelLead l o.outer))).filterMap Token.leaf? =
      o.current.elim [] (·.leaves) := by
    cases o.current with
    | none => rfl
    | some e => exact e.leaves_tokens _
  simp [tokens, leaves, leaves_groupTokens, hc]

/-- The comparisons that have been read are those of the tokens. -/
theorem leaves_of_read? {ts : List (Token α)} {o : Outline α} (h : empty.read? ts = some o) :
    o.leaves = ts.filterMap Token.leaf? := by
  obtain ⟨l, hl⟩ := tokens_read? h .undefined
  have hread : o.tokens l = ts := hl
  rw [← hread, leaves_tokens]

end Outline

end QueryCriteria
