import QueryCriteria.Proofs.EntityQuery.Draft
import QueryCriteria.Proofs.EntityQuery.Restriction
/-!
# Spellings

How criteria spell an expression over restrictions: each bracket by a criterion of its own, or by
the restriction beside it. Criteria that a draft takes spell some tokens (`spells_of_addAll`), and a
draft takes a spelling exactly when the outline goes on with its tokens (`addAll_agrees`). Whatever
is taken is numbered as it is read.
-/

namespace QueryCriteria

/-- The tokens that a criterion spells. A bracket of its own says nothing by its operand and value,
and one that closes nothing by its logical operator. The operator of a restriction that opens a
group belongs to the group. -/
inductive Says : Criterion → List (Token Restriction) → Prop
  | opening (operand : Option String) (value : Option Value) (logical : Logical) :
    Says { operand, value, logical, enclosure := .opening } [.opening logical]
  | closing (operand : Option String) (value : Option Value) (logical : Logical) :
    Says { operand, value, logical, enclosure := .closing } [.closing]
  | restriction (r : Restriction) (logical : Logical) :
    Says (r.criterion logical .undefined) [.comparison logical r]
  | opener (r : Restriction) (logical : Logical) :
    Says (r.criterion logical .opening) [.opening logical, .comparison .undefined r]
  | closer (r : Restriction) (logical : Logical) :
    Says (r.criterion logical .closing) [.comparison logical r, .closing]

/-- The tokens that criteria spell one after the other. -/
inductive Spells : List Criterion → List (Token Restriction) → Prop
  | nil : Spells [] []
  | cons {c : Criterion} {cs : List Criterion} {ts us : List (Token Restriction)} (h : Says c ts)
    (hs : Spells cs us) : Spells (c :: cs) (ts ++ us)

variable {c : Criterion} {cs : List Criterion} {ts us : List (Token Restriction)}

/-! ## One criterion -/

theorem says_of_enclosure (h : c.role = .ok .enclosure) : Says c (c.tokens none) := by
  have hdefined := (Criterion.isDefined_of_enclosure h).2
  obtain ⟨hcomparison, hjoin, horder⟩ := Criterion.join_order_of_enclosure h
  obtain ⟨operand, value, comparison, logical, enclosure, join, order⟩ := c
  subst hcomparison hjoin horder
  cases enclosure with
  | opening => exact .opening operand value logical
  | closing => exact .closing operand value logical
  | undefined => cases hdefined

theorem says_criterion (r : Restriction) (logical : Logical) (enclosure : Enclosure) :
    Says (r.criterion logical enclosure) ((r.criterion logical enclosure).tokens (some r)) := by
  cases enclosure with
  | opening => exact .opener r logical
  | closing => exact .closer r logical
  | undefined => exact .restriction r logical

/-- A criterion that says something is a bare bracket or that of a restriction. -/
theorem Says.cases (h : Says c ts) : (c.role = .ok .enclosure ∧ ts = c.tokens none) ∨
    ∃ r : Restriction, c = r.criterion c.logical c.enclosure ∧ ts = c.tokens (some r) := by
  cases h with
  | opening => exact .inl ⟨rfl, rfl⟩
  | closing => exact .inl ⟨rfl, rfl⟩
  | restriction r => exact .inr ⟨r, rfl, rfl⟩
  | opener r => exact .inr ⟨r, rfl, rfl⟩
  | closer r => exact .inr ⟨r, rfl, rfl⟩

/-- A criterion says one thing at most. -/
theorem Says.unique (h : Says c ts) (h' : Says c us) : ts = us := by
  rcases h.cases with ⟨hr, rfl⟩ | ⟨r, heq, rfl⟩ <;>
    rcases h'.cases with ⟨hr', rfl⟩ | ⟨r', heq', rfl⟩
  · rfl
  · rw [heq', r'.role_criterion] at hr
    cases hr
  · rw [heq, r.role_criterion] at hr'
    cases hr'
  · rw [Restriction.criterion_inj (heq.symm.trans heq')]

theorem Says.ne_nil (h : Says c ts) : ts ≠ [] := by
  cases h <;> simp

/-! ## Sequences -/

/-- The restrictions among tokens. -/
def restrictionsOf (ts : List (Token Restriction)) : List Restriction := ts.filterMap Token.leaf?

theorem restrictionsOf_append (ts us : List (Token Restriction)) :
    restrictionsOf (ts ++ us) = restrictionsOf ts ++ restrictionsOf us := List.filterMap_append

theorem restrictionsOf_tokens (c : Criterion) (r? : Option Restriction) :
    restrictionsOf (c.tokens r?) = r?.toList := c.leaves_tokens r?

theorem Spells.append {cs' : List Criterion} (h : Spells cs ts) (h' : Spells cs' us) :
    Spells (cs ++ cs') (ts ++ us) := by
  induction h with
  | nil => exact h'
  | cons hc _ ih =>
    rw [List.cons_append, List.append_assoc]
    exact .cons hc ih

theorem Says.spells (h : Says c ts) : Spells [c] ts := by
  simpa using Spells.cons h .nil

/-- Criteria spell one thing at most. -/
theorem Spells.unique (h : Spells cs ts) (h' : Spells cs us) : ts = us := by
  induction h generalizing us with
  | nil => cases h'; rfl
  | cons hc _ ih =>
    cases h' with
    | cons hc' hcs' => rw [hc.unique hc', ih hcs']

theorem Spells.eq_nil (h : Spells cs []) : cs = [] := by
  generalize hts : ([] : List (Token Restriction)) = ts at h
  cases h with
  | nil => rfl
  | cons hc hcs => exact absurd (List.append_eq_nil_iff.1 hts.symm).1 hc.ne_nil

/-- Criteria read as the tokens that they spell, up to what stands for a comparison. -/
theorem Spells.map_readingOf (h : Spells cs ts) :
    (readingOf cs).map (Token.map Criterion.bare) = ts.map (Token.map Restriction.bare) := by
  induction h with
  | nil => rfl
  | @cons c cs ts us hc _ ih =>
    rw [readingOf_cons, List.map_append, List.map_append, ih]
    congr 1
    rcases hc.cases with ⟨hr, rfl⟩ | ⟨r, heq, rfl⟩
    · have hcompared : c.compared? = none :=
        if_neg (by simp [(Criterion.isDefined_of_enclosure hr).1])
      rw [hcompared, Criterion.map_tokens, Criterion.map_tokens]
      rfl
    · have hcompared : c.compared? = some c := by rw [heq, r.compared?_criterion]
      have hbare : c.bare = r.bare := by rw [heq, r.bare_criterion]
      rw [hcompared, Criterion.map_tokens, Criterion.map_tokens, Option.map_some, Option.map_some,
        hbare]

/-- The comparisons among criteria are the restrictions that they spell. -/
theorem Spells.compared_eq (h : Spells cs ts) :
    (cs.filterMap Criterion.compared?).map Criterion.bare =
      (restrictionsOf ts).map Restriction.bare := by
  rw [← leaves_readingOf, ← Token.leaves_map, h.map_readingOf, Token.leaves_map]
  rfl

/-- Every restriction that criteria spell is that of one of them. -/
theorem Spells.exists_criterion (h : Spells cs ts) {r : Restriction} (hr : r ∈ restrictionsOf ts) :
    ∃ logical enclosure, r.criterion logical enclosure ∈ cs := by
  induction h with
  | nil => cases hr
  | @cons c cs ts us hc _ ih =>
    rw [restrictionsOf_append] at hr
    rcases List.mem_append.1 hr with hr | hr
    · rcases hc.cases with ⟨-, rfl⟩ | ⟨r', heq, rfl⟩ <;> rw [restrictionsOf_tokens] at hr
      · cases hr
      · obtain rfl := List.mem_singleton.1 hr
        exact ⟨c.logical, c.enclosure, heq ▸ .head _⟩
    · obtain ⟨logical, enclosure, hmem⟩ := ih hr
      exact ⟨logical, enclosure, .tail _ hmem⟩

/-! ## Numbers -/

/-- The number of the next parameter behind tokens. -/
def nextNumber (ts : List (Token Restriction)) : Nat := (valuesOf (restrictionsOf ts)).length + 1

/-- Tokens with the numbers of their parameters, where `n` is the next one. -/
def number (n : Nat) : List (Token Restriction) → List (Token (Nat × Restriction))
  | [] => []
  | .opening logical :: ts => .opening logical :: number n ts
  | .comparison logical r :: ts =>
    .comparison logical (n, r) :: number (if r.value.isSome then n + 1 else n) ts
  | .closing :: ts => .closing :: number n ts

theorem number_append (n : Nat) (ts us : List (Token Restriction)) : number n (ts ++ us) =
    number n ts ++ number (n + (valuesOf (restrictionsOf ts)).length) us := by
  induction ts generalizing n with
  | nil => rfl
  | cons t ts ih =>
    cases t with
    | opening logical => simp [number, ih, restrictionsOf, List.filterMap_cons, Token.leaf?]
    | closing => simp [number, ih, restrictionsOf, List.filterMap_cons, Token.leaf?]
    | comparison logical r =>
      rw [List.cons_append, number, ih]
      cases hv : r.value with
      | none => simp [number, restrictionsOf, valuesOf, Token.leaf?, hv]
      | some value =>
        simp [number, restrictionsOf, valuesOf, Token.leaf?, hv, Nat.add_assoc, Nat.add_comm]

theorem number_one_append (ts us : List (Token Restriction)) :
    number 1 (ts ++ us) = number 1 ts ++ number (nextNumber ts) us := by
  rw [number_append, nextNumber, Nat.add_comm 1]

theorem map_number (n : Nat) (ts : List (Token Restriction)) :
    (number n ts).map (Token.map Prod.snd) = ts := by
  induction ts generalizing n with
  | nil => rfl
  | cons t ts ih => cases t <;> simp [number, Token.map, ih]

theorem leaves_number (n : Nat) (ts : List (Token Restriction)) :
    (number n ts).filterMap Token.leaf? = numberFrom n (restrictionsOf ts) := by
  induction ts generalizing n with
  | nil => rfl
  | cons t ts ih =>
    cases t <;> simp [number, restrictionsOf, List.filterMap_cons, Token.leaf?, numberFrom] <;>
      exact ih _

theorem number_tokens_none (n : Nat) (c : Criterion) :
    number n (c.tokens none) = c.tokens none := by
  unfold Criterion.tokens
  cases c.enclosure <;> rfl

theorem number_tokens_some (n : Nat) (c : Criterion) (r : Restriction) :
    number n (c.tokens (some r)) = c.tokens (some (n, r)) := by
  unfold Criterion.tokens
  cases c.enclosure <;> rfl

/-! ## Drafts -/

namespace EntityQuery.Draft

/-- The predicate of a numbered restriction. -/
abbrev leafOf (rootAlias : String) (p : Nat × Restriction) : Predicate :=
  p.2.predicate rootAlias p.1

/-- The draft has read tokens, written the outline of them and bound their values. -/
structure Follows (rootAlias : String) (ts : List (Token Restriction))
    (o : Outline (Nat × Restriction)) (d : Draft) : Prop where
  rootAlias_eq : d.rootAlias = rootAlias
  read : Outline.empty.read? (number 1 ts) = some o
  writes : Writes (leafOf rootAlias) o d
  parameters : d.parameters.toList = named (valuesOf (restrictionsOf ts))

variable {rootAlias : String} {o : Outline (Nat × Restriction)} {d d' : Draft}

theorem Follows.of_sameWhere (h : Follows rootAlias ts o d) (hs : SameWhere d d') :
    Follows rootAlias ts o d' where
  rootAlias_eq := hs.rootAlias.trans h.rootAlias_eq
  read := h.read
  writes := ⟨hs.restrictions.trans h.writes.restrictions, hs.openGroups.trans h.writes.openGroups⟩
  parameters := by rw [hs.parameters, h.parameters]

/-- Tokens are read and written together, and the value that they bring is bound. -/
theorem Follows.written (h : Follows rootAlias ts o d) {o' : Outline (Nat × Restriction)}
    (hread : o.read? (number (nextNumber ts) us) = some o') {more : List Fragment}
    {value : Option Value} {openGroups : Nat}
    (hw : Writes (leafOf rootAlias) o' (d.written c more value openGroups))
    (hvalue : valuesOf (restrictionsOf us) = value.toList) :
    Follows rootAlias (ts ++ us) o' (d.written c more value openGroups) := by
  refine ⟨h.rootAlias_eq, ?_, hw, ?_⟩
  · rw [number_one_append, Outline.read?_append, h.read]
    exact hread
  · rw [restrictionsOf_append, valuesOf_append, hvalue]
    cases value with
    | none => simpa [Draft.written] using h.parameters
    | some value => exact Parameters.toList_bind h.parameters value

/-- The predicates that are written are those of the restrictions that have been read. -/
theorem Follows.predicates_eq (h : Follows rootAlias ts o d) :
    d.restrictions.filterMap Fragment.predicate? =
      (numberFrom 1 (restrictionsOf ts)).map (leafOf rootAlias) := by
  rw [h.writes.restrictions, Outline.predicates_fragments, Outline.leaves_of_read? h.read,
    leaves_number]

/-- A criterion is taken when the outline goes on with the tokens that it says. -/
theorem add_agrees (h : Follows rootAlias ts o d) (hc : Says c us) :
    Agrees (Follows rootAlias (ts ++ us)) (o.read? (number (nextNumber ts) us)) (d.add c) := by
  rcases hc.cases with ⟨hr, rfl⟩ | ⟨r, heq, rfl⟩
  · have hagrees := add_agrees_of_enclosure h.writes hr
    rw [← number_tokens_none (nextNumber ts)] at hagrees
    apply hagrees.imp
    intro o' d' ho hadd hw
    obtain ⟨more, value, openGroups, -, rfl, ⟨hr', -⟩ | ⟨-, rfl⟩⟩ := add_cases hadd
    · cases hr.symm.trans hr'
    · exact h.written ho hw (by simp [restrictionsOf_tokens, valuesOf])
  · have hr : c.role = .ok .restriction := heq ▸ r.role_criterion c.logical c.enclosure
    have hp : d.predicate c = .ok (leafOf rootAlias (nextNumber ts, r), r.value) := by
      rw [heq, predicate_criterion h.parameters, h.rootAlias_eq]
      rfl
    have hagrees := add_agrees_of_restriction h.writes hr hp
    rw [← number_tokens_some (nextNumber ts)] at hagrees
    apply hagrees.imp
    intro o' d' ho hadd hw
    obtain ⟨more, value, openGroups, -, rfl, ⟨-, p, hp'⟩ | ⟨hr', -⟩⟩ := add_cases hadd
    · obtain ⟨-, rfl⟩ := Prod.mk.inj (Except.ok.inj (hp.symm.trans hp'))
      refine h.written ho hw ?_
      rw [restrictionsOf_tokens]
      cases hv : r.value <;> simp [valuesOf, hv]
    · cases hr.symm.trans hr'

/-- Criteria are taken when the outline goes on with the tokens that they spell. -/
theorem addAll_agrees (h : Follows rootAlias ts o d) (hcs : Spells cs us) :
    Agrees (Follows rootAlias (ts ++ us)) (o.read? (number (nextNumber ts) us)) (d.addAll cs) := by
  induction hcs generalizing ts o d with
  | nil => exact .ok (by simpa using h)
  | @cons c cs us₁ us₂ hc _ ih =>
    have hnumber : number (nextNumber ts) (us₁ ++ us₂) =
        number (nextNumber ts) us₁ ++ number (nextNumber (ts ++ us₁)) us₂ := by
      have hlength : nextNumber (ts ++ us₁) =
          nextNumber ts + (valuesOf (restrictionsOf us₁)).length := by
        simp only [nextNumber, restrictionsOf_append, valuesOf_append, List.length_append]
        omega
      rw [number_append, hlength]
    rw [hnumber, Outline.read?_append, addAll, List.foldlM_cons, ← List.append_assoc]
    apply (add_agrees h hc).bind
    intro o' d' h'
    exact ih h'

/-- A draft that compiles has read a whole expression. -/
theorem Follows.of_compile {query : EntityQuery} (h : Follows rootAlias ts o d)
    (hcompile : d.compile = .ok query) :
    query.text = d.text ∧ ∃ e?, o = ⟨[], e?⟩ := by
  unfold compile at hcompile
  split at hcompile
  · cases hcompile
  · next hclosed =>
    cases hcompile
    obtain ⟨outer, e?⟩ := o
    have hdepth : d.openGroups = outer.length := h.writes.openGroups
    obtain rfl : outer = [] := List.length_eq_zero_iff.1 (by omega)
    exact ⟨rfl, e?, rfl⟩

/-- What a draft takes says something. -/
theorem says_of_add (h : d.add c = .ok d') : ∃ ts, Says c ts := by
  obtain ⟨more, value, openGroups, -, -, ⟨hr, p, hp⟩ | ⟨hr, -⟩⟩ := add_cases h
  · obtain ⟨r, heq⟩ := exists_restriction hr hp
    rw [heq]
    exact ⟨_, says_criterion r _ _⟩
  · exact ⟨_, says_of_enclosure hr⟩

/-- What a draft takes all of spells some tokens. -/
theorem spells_of_addAll (h : d.addAll cs = .ok d') : ∃ ts, Spells cs ts := by
  induction cs generalizing d with
  | nil => exact ⟨[], .nil⟩
  | cons c cs ih =>
    rw [addAll, List.foldlM_cons] at h
    obtain ⟨d₁, h₁, h⟩ := bind_eq_ok_iff.1 h
    obtain ⟨ts, hc⟩ := says_of_add h₁
    obtain ⟨us, hcs⟩ := ih h
    exact ⟨ts ++ us, .cons hc hcs⟩

/-- A new draft has read nothing. -/
theorem follows_create {entity : String} {schema : Schema} {settings : Settings}
    (h : create entity schema settings = .ok d) :
    Spells d.restrictionCriteria [] ∧ Follows d.rootAlias [] .empty d := by
  obtain ⟨root, joins, joinCriteria, hints, -, rfl⟩ := create_eq_ok h
  exact ⟨.nil, rfl, rfl, ⟨rfl, rfl⟩, rfl⟩

/-- A run of calls reads more tokens, those that the criteria that it takes spell, and writes behind
what there is. -/
theorem Follows.run (h : Follows rootAlias ts o d) (hts : Spells d.restrictionCriteria ts)
    (calls : List Call) : ∃ us o', Spells (d.run calls).restrictionCriteria (ts ++ us) ∧
      Follows rootAlias (ts ++ us) o' (d.run calls) ∧
      d.restrictions <+: (d.run calls).restrictions := by
  apply run_invariant (P := fun d' => ∃ us o', Spells d'.restrictionCriteria (ts ++ us) ∧
    Follows rootAlias (ts ++ us) o' d' ∧ d.restrictions <+: d'.restrictions)
  · rintro d₁ c d₂ ⟨us, o₁, hspells, h₁, hbefore⟩ hadd
    obtain ⟨vs, hc⟩ := says_of_add hadd
    obtain ⟨o₂, -, h₂⟩ := (hadd ▸ add_agrees h₁ hc).of_ok
    obtain ⟨⟨more, -, hmore⟩, hrecord⟩ := restrictions_add hadd
    rw [List.append_assoc] at h₂
    refine ⟨us ++ vs, o₂, ?_, h₂, ?_⟩
    · rw [hrecord, ← List.append_assoc]
      exact hspells.append hc.spells
    · rw [hmore]
      exact hbefore.trans (List.prefix_append _ _)
  · rintro d₁ d₂ ⟨us, o₁, hspells, h₁, hbefore⟩ hs
    exact ⟨us, o₁, hs.restrictionCriteria ▸ hspells, h₁.of_sameWhere hs,
      hs.restrictions ▸ hbefore⟩
  · exact ⟨[], o, by simpa using hts, by simpa using h, List.prefix_rfl⟩

end EntityQuery.Draft

end QueryCriteria
