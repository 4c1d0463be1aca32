import QueryCriteria.EntityQuery.Call
import QueryCriteria.EntityQuery.Fetching
import QueryCriteria.Proofs.EntityQuery.WhereClause
import QueryCriteria.Proofs.Reading
import QueryCriteria.Proofs.Run
/-!
# Drafts of entity queries as readers

A draft writes the fragments of the outline that it has read, and takes a criterion exactly when
the outline goes on with its tokens. What every accepted criterion keeps, a run of calls keeps.
-/

namespace QueryCriteria.EntityQuery

namespace Draft

variable {α : Type} {leaf : α → Predicate} {o : Outline α} {d : Draft} {c : Criterion}

/-- The draft has written what has been read, and counts its open groups. -/
structure Writes (leaf : α → Predicate) (o : Outline α) (d : Draft) : Prop where
  restrictions : d.restrictions = o.fragments leaf
  openGroups : d.openGroups = o.depth

/-! ## One criterion -/

/-- The connective is written where the outline has a place for the term, and leads to it. -/
theorem connective_agrees (h : Writes leaf o d) :
    Agrees (fun s lead => d.restrictions ++ lead =
        .whereWord :: (Outline.groupFragments leaf o.outer ++ s.fragments leaf))
      (o.slot? c.logical) (d.connective c) := by
  obtain ⟨outer, current⟩ := o
  unfold connective
  rw [h.restrictions]
  cases current with
  | some e =>
    obtain ⟨f, hf, hopen⟩ := Outline.getLast?_fragments_some leaf outer e
    rw [hf]
    -- Whatever the last fragment is, it does not open a group, so a connective is due.
    cases hl : c.logical with
    | undefined => cases f <;> first | exact .error _ | exact absurd rfl hopen
    | _ =>
      cases f <;> first
        | exact absurd rfl hopen
        | exact .ok (by simp [Outline.fragments, Outline.body, Slot.fragments,
            DirectorySearch.Connective.fragment])
  | none =>
    cases outer with
    | nil => cases hl : c.logical <;> exact .ok rfl
    | cons s outer =>
      rw [Outline.getLast?_fragments_none]
      cases hl : c.logical with
      | undefined => exact .ok (by simp [Outline.fragments, Outline.body, Slot.fragments])
      | _ => exact .error _

/-- A bare bracket is taken when the outline goes on with it. -/
theorem addMarker_agrees (h : Writes leaf o d) (hc : Operator.isDefined c.enclosure = true) :
    Agrees (Writes leaf) (o.read? (c.tokens none)) (d.addMarker c) := by
  unfold addMarker Criterion.tokens
  cases he : c.enclosure with
  | undefined => rw [he] at hc; cases hc
  | opening =>
    rw [Outline.read?_opening]
    refine (connective_agrees h).bind fun s lead hlead => .ok ⟨?_, ?_⟩
    · simp [hlead, Outline.fragments_opened]
    · simp [h.openGroups, Outline.depth]
  | closing =>
    obtain ⟨outer, current⟩ := o
    cases outer with
    | nil =>
      simp only [checkClosing, h.openGroups, Outline.depth]
      exact .error _
    | cons s outer =>
      cases current with
      | none =>
        simp only [checkClosing, h.openGroups, h.restrictions, Outline.getLast?_fragments_none]
        exact .error _
      | some e =>
        obtain ⟨f, hf, hopen⟩ := Outline.getLast?_fragments_some leaf (s :: outer) e
        simp only [checkClosing, h.openGroups, h.restrictions, hf, Option.some.injEq, hopen]
        exact .ok ⟨by simp [Outline.fragments_closed], by simp [Outline.depth]⟩

/-- A comparison, with the bracket it brings, is taken when the outline goes on with them. -/
theorem addRestriction_agrees (h : Writes leaf o d) {a : α} {value : Option Value}
    (hp : d.predicate c = .ok (leaf a, value)) :
    Agrees (Writes leaf) (o.read? (c.tokens (some a))) (d.addRestriction c) := by
  unfold addRestriction Criterion.tokens
  cases he : c.enclosure with
  | undefined =>
    rw [Outline.read?_comparison, hp]
    refine (connective_agrees h).bind fun s lead hlead => .ok ⟨?_, h.openGroups⟩
    simp [hlead, Outline.fragments_put, Term.fragments]
  | opening =>
    rw [Outline.read?_opening, hp]
    refine (connective_agrees h).bind fun s lead hlead => .ok ⟨?_, ?_⟩
    · simp [hlead, Outline.fragments_put, Term.fragments, Outline.groupFragments, Slot.fragments]
    · simp [h.openGroups, Outline.depth, Outline.put]
  | closing =>
    rw [Outline.read?_comparison, hp]
    obtain ⟨outer, current⟩ := o
    cases outer with
    | nil =>
      simp only [checkClosing, h.openGroups, Outline.depth]
      cases Outline.slot? ⟨[], current⟩ c.logical <;> exact .error _
    | cons s' outer =>
      simp only [checkClosing, h.openGroups, Outline.depth]
      refine (connective_agrees h).bind fun s lead hlead => .ok ⟨?_, by simp [Outline.depth]⟩
      have hput := Outline.fragments_put leaf ⟨s' :: outer, current⟩ s (.leaf a)
      rw [Outline.put] at hput
      simp [hlead, Outline.fragments_closed, hput, Term.fragments]

/-- A bare bracket is taken when the outline goes on with it; the call only records it besides. -/
theorem add_agrees_of_enclosure (h : Writes leaf o d) (hr : c.role = .ok .enclosure) :
    Agrees (Writes leaf) (o.read? (c.tokens none)) (d.add c) := by
  have hm := addMarker_agrees h (Criterion.isDefined_of_enclosure hr).2
  unfold add
  rw [hr]
  exact hm.map fun _ _ hw => ⟨hw.restrictions, hw.openGroups⟩

theorem add_agrees_of_restriction (h : Writes leaf o d) (hr : c.role = .ok .restriction) {a : α}
    {value : Option Value} (hp : d.predicate c = .ok (leaf a, value)) :
    Agrees (Writes leaf) (o.read? (c.tokens (some a))) (d.add c) := by
  unfold add
  rw [hr]
  exact (addRestriction_agrees h hp).map fun _ _ hw => ⟨hw.restrictions, hw.openGroups⟩

/-- The draft once a criterion has written more fragments and bound a value, if it has one. -/
def written (d : Draft) (c : Criterion) (more : List Fragment) (value : Option Value)
    (openGroups : Nat) : Draft :=
  { d with
    restrictions := d.restrictions ++ more
    parameters := value.elim d.parameters d.parameters.bind
    openGroups
    restrictionCriteria := d.restrictionCriteria ++ [c] }

/-- What a comparison that is taken does. -/
theorem addRestriction_cases {d' : Draft} (h : d.addRestriction c = .ok d') :
    ∃ more p value openGroups, more ≠ [] ∧ d.predicate c = .ok (p, value) ∧
      d' = { d with
        restrictions := d.restrictions ++ more
        parameters := value.elim d.parameters d.parameters.bind
        openGroups } := by
  unfold addRestriction at h
  -- Whatever bracket it brings, its fragments stand behind the connective.
  cases he : c.enclosure with
  | closing =>
    simp only [he, if_true] at h
    obtain ⟨_, -, h⟩ := bind_eq_ok_iff.1 h
    obtain ⟨lead, -, h⟩ := bind_eq_ok_iff.1 h
    obtain ⟨⟨p, value⟩, hp, h⟩ := bind_eq_ok_iff.1 h
    cases h
    exact ⟨lead ++ [.predicate p, .closing], p, value, _, by simp, hp, by simp; rfl⟩
  | opening =>
    simp only [he, reduceCtorEq, if_false] at h
    obtain ⟨lead, -, h⟩ := bind_eq_ok_iff.1 h
    obtain ⟨⟨p, value⟩, hp, h⟩ := bind_eq_ok_iff.1 h
    cases h
    exact ⟨lead ++ [.opening, .predicate p], p, value, _, by simp, hp, by simp; rfl⟩
  | undefined =>
    simp only [he, reduceCtorEq, if_false] at h
    obtain ⟨lead, -, h⟩ := bind_eq_ok_iff.1 h
    obtain ⟨⟨p, value⟩, hp, h⟩ := bind_eq_ok_iff.1 h
    cases h
    exact ⟨lead ++ [.predicate p], p, value, _, by simp, hp, by simp; rfl⟩

/-- What a bare bracket that is taken does. -/
theorem addMarker_cases {d' : Draft} (h : d.addMarker c = .ok d') :
    ∃ more openGroups, more ≠ [] ∧
      d' = { d with restrictions := d.restrictions ++ more, openGroups } := by
  unfold addMarker at h
  cases he : c.enclosure with
  | opening =>
    simp only [he] at h
    obtain ⟨lead, -, h⟩ := bind_eq_ok_iff.1 h
    cases h
    exact ⟨lead ++ [.opening], _, by simp, by simp; rfl⟩
  | closing =>
    simp only [he] at h
    obtain ⟨_, -, h⟩ := bind_eq_ok_iff.1 h
    split at h
    · cases h
    · cases h
      exact ⟨[.closing], _, by simp, rfl⟩
  | undefined =>
    simp only [he] at h
    cases h

/-- A criterion that is taken is a comparison or a bare bracket. It is recorded, writes behind what
there is, and binds the value of its comparison. -/
theorem add_cases {d' : Draft} (h : d.add c = .ok d') :
    ∃ more value openGroups, more ≠ [] ∧ d' = d.written c more value openGroups ∧
      (c.role = .ok .restriction ∧ (∃ p, d.predicate c = .ok (p, value)) ∨
        c.role = .ok .enclosure ∧ value = none) := by
  obtain ⟨role, hr, h⟩ := bind_eq_ok_iff.1 h
  cases role with
  | restriction =>
    obtain ⟨d₁, h₁, h⟩ := bind_eq_ok_iff.1 h
    obtain ⟨more, p, value, openGroups, hne, hp, rfl⟩ := addRestriction_cases h₁
    cases h
    exact ⟨more, value, openGroups, hne, rfl, .inl ⟨hr, p, hp⟩⟩
  | enclosure =>
    obtain ⟨d₁, h₁, h⟩ := bind_eq_ok_iff.1 h
    obtain ⟨more, openGroups, hne, rfl⟩ := addMarker_cases h₁
    cases h
    exact ⟨more, none, openGroups, hne, rfl, .inr ⟨hr, rfl⟩⟩
  | join => cases h
  | order => cases h

/-- A criterion that is taken is recorded, and writes behind what there is. -/
theorem restrictions_add {d' : Draft} (h : d.add c = .ok d') :
    (∃ more, more ≠ [] ∧ d'.restrictions = d.restrictions ++ more) ∧
      d'.restrictionCriteria = d.restrictionCriteria ++ [c] := by
  obtain ⟨more, value, openGroups, hne, rfl, -⟩ := add_cases h
  exact ⟨⟨more, hne, rfl⟩, rfl⟩

/-- Whatever criterion a draft takes, it has written an outline that goes on with its tokens. -/
theorem writes_add {o : Outline Predicate} {d d' : Draft} (h : Writes id o d)
    (hadd : d.add c = .ok d') :
    ∃ p? o', o.read? (c.tokens p?) = some o' ∧ Writes id o' d' := by
  obtain ⟨_, _, _, -, -, ⟨hr, p, hp⟩ | ⟨hr, -⟩⟩ := add_cases hadd
  · obtain ⟨o', ho, hw⟩ := (hadd ▸ add_agrees_of_restriction h hr hp).of_ok
    exact ⟨some p, o', ho, hw⟩
  · obtain ⟨o', ho, hw⟩ := (hadd ▸ add_agrees_of_enclosure h hr).of_ok
    exact ⟨none, o', ho, hw⟩

/-! ## Criteria in place of others -/

/-- Drafts, criteria and values are replaced so that a restriction or bracket fares as before. -/
structure Carries (g : Draft → Draft) (f : Criterion → Criterion) (h : Value → Value) : Prop where
  role : ∀ c, (f c).role = c.role
  enclosure : ∀ c, (f c).enclosure = c.enclosure
  restrictions : ∀ d, (g d).restrictions = d.restrictions
  openGroups : ∀ d, (g d).openGroups = d.openGroups
  connective : ∀ d c, (g d).connective (f c) = d.connective c
  predicate : ∀ d c, (g d).predicate (f c) = (d.predicate c).map fun p => (p.1, p.2.map h)
  /-- What it writes, binds and records goes along. -/
  taken : ∀ (d : Draft) (c : Criterion) (restrictions : List Fragment) (value : Option Value)
    (openGroups : Nat),
    { g d with
      restrictions
      parameters := (value.map h).elim (g d).parameters (g d).parameters.bind
      openGroups
      restrictionCriteria := (g d).restrictionCriteria ++ [f c] : Draft } =
    g { d with
      restrictions
      parameters := value.elim d.parameters d.parameters.bind
      openGroups
      restrictionCriteria := d.restrictionCriteria ++ [c] }

/-- What becomes of a restriction or bracket is carried along. -/
theorem Carries.add {g : Draft → Draft} {f : Criterion → Criterion} {h : Value → Value}
    (hg : Carries g f h) (d : Draft) (c : Criterion) : (g d).add (f c) = (d.add c).map g := by
  have hclosing : (g d).checkClosing = d.checkClosing := by
    unfold checkClosing
    rw [hg.openGroups]
  unfold Draft.add addRestriction addMarker
  rw [hg.role, hg.enclosure, hclosing, hg.connective, hg.predicate, hg.restrictions, hg.openGroups]
  cases c.role with
  | error fault => rfl
  | ok role =>
    cases role with
    | join | order => rfl
    | enclosure =>
      cases c.enclosure with
      | undefined => rfl
      | opening =>
        cases d.connective c with
        | error fault => rfl
        | ok lead => exact congrArg Except.ok (hg.taken d c _ none _)
      | closing =>
        cases d.checkClosing with
        | error fault => rfl
        | ok _ =>
          dsimp only [ok_bind]
          split
          · rfl
          · exact congrArg Except.ok (hg.taken d c _ none _)
    | restriction =>
      -- A check that fails ends both calls alike; past the last one both take the criterion.
      cases c.enclosure <;> cases d.checkClosing <;> cases d.connective c <;>
        rcases d.predicate c with fault | ⟨p, value⟩ <;>
        first
          | rfl
          | exact congrArg Except.ok (hg.taken d c _ value _)

section
variable {g : Draft → Draft} {c' : Criterion} (hrole : c'.role = c.role)
  (hoperand : ∀ kind, c'.requireOperand kind = c.requireOperand kind)
include hrole hoperand

/-- What becomes of an order is carried along when the order and its record are. -/
theorem addOrder_map (hpush : ∀ operand : String,
      { g d with
        orders := (g d).orders ++ [⟨operand, c'.order⟩]
        orderCriteria := (g d).orderCriteria ++ [c'] : Draft } =
      g { d with
        orders := d.orders ++ [⟨operand, c.order⟩]
        orderCriteria := d.orderCriteria ++ [c] }) :
    (g d).addOrder c' = (d.addOrder c).map g := by
  unfold addOrder
  rw [hrole, hoperand]
  cases c.role with
  | error fault => rfl
  | ok role =>
    cases role with
    | order =>
      cases c.requireOperand "order" with
      | error fault => rfl
      | ok operand => exact congrArg Except.ok (hpush operand)
    | _ => rfl

/-- What becomes of a join is carried along when what it pushes is. -/
theorem addJoin_map (hpush : ∀ operand : String,
      (g d).pushJoin ⟨c'.join, none, operand, none⟩ c' =
        g (d.pushJoin ⟨c.join, none, operand, none⟩ c)) :
    (g d).addJoin c' = (d.addJoin c).map g := by
  unfold addJoin
  rw [hrole, hoperand]
  cases c.role with
  | error fault => rfl
  | ok role =>
    cases role with
    | join =>
      cases c.requireOperand "join" with
      | error fault => rfl
      | ok operand => exact congrArg Except.ok (hpush operand)
    | _ => rfl

end

/-! ## Other calls -/

/-- The two drafts have the same where clause, from the same criteria. -/
structure SameWhere (d d' : Draft) : Prop where
  rootAlias : d'.rootAlias = d.rootAlias
  restrictions : d'.restrictions = d.restrictions
  openGroups : d'.openGroups = d.openGroups
  parameters : d'.parameters = d.parameters
  restrictionCriteria : d'.restrictionCriteria = d.restrictionCriteria

theorem SameWhere.refl (d : Draft) : SameWhere d d := ⟨rfl, rfl, rfl, rfl, rfl⟩

theorem SameWhere.trans {d₁ d₂ d₃ : Draft} (h : SameWhere d₁ d₂) (h' : SameWhere d₂ d₃) :
    SameWhere d₁ d₃ where
  rootAlias := h'.rootAlias.trans h.rootAlias
  restrictions := h'.restrictions.trans h.restrictions
  openGroups := h'.openGroups.trans h.openGroups
  parameters := h'.parameters.trans h.parameters
  restrictionCriteria := h'.restrictionCriteria.trans h.restrictionCriteria

/-- An order that is taken goes behind the others and is recorded. -/
theorem addOrder_cases {d' : Draft} (h : d.addOrder c = .ok d') :
    ∃ operand, c.role = .ok .order ∧ c.requireOperand "order" = .ok operand ∧
      d' = { d with
        orders := d.orders ++ [⟨operand, c.order⟩]
        orderCriteria := d.orderCriteria ++ [c] } := by
  obtain ⟨role, hr, h⟩ := bind_eq_ok_iff.1 h
  cases role with
  | order =>
    obtain ⟨operand, hoperand, h⟩ := bind_eq_ok_iff.1 h
    cases h
    exact ⟨operand, hr, hoperand, rfl⟩
  | _ => cases h

/-- A join that is taken is pushed from the root, without a name. -/
theorem addJoin_cases {d' : Draft} (h : d.addJoin c = .ok d') :
    ∃ operand, c.role = .ok .join ∧ c.requireOperand "join" = .ok operand ∧
      d' = d.pushJoin ⟨c.join, none, operand, none⟩ c := by
  obtain ⟨role, hr, h⟩ := bind_eq_ok_iff.1 h
  cases role with
  | join =>
    obtain ⟨operand, hoperand, h⟩ := bind_eq_ok_iff.1 h
    cases h
    exact ⟨operand, hr, hoperand, rfl⟩
  | _ => cases h

theorem sameWhere_addOrder {d' : Draft} (h : d.addOrder c = .ok d') : SameWhere d d' := by
  obtain ⟨_, -, -, rfl⟩ := addOrder_cases h
  exact ⟨rfl, rfl, rfl, rfl, rfl⟩

/-- A join changes the joins and nothing else. -/
theorem pushJoin_eq (d : Draft) (clause : JoinClause) (c : Criterion) :
    ∃ joins joinCriteria, d.pushJoin clause c = { d with joins, joinCriteria } := by
  unfold pushJoin
  split
  · exact ⟨d.joins, d.joinCriteria, rfl⟩
  · exact ⟨_, _, rfl⟩

theorem sameWhere_addJoin {d' : Draft} (h : d.addJoin c = .ok d') : SameWhere d d' := by
  obtain ⟨operand, -, -, rfl⟩ := addJoin_cases h
  obtain ⟨joins, joinCriteria, heq⟩ := pushJoin_eq d ⟨c.join, none, operand, none⟩ c
  rw [heq]
  exact ⟨rfl, rfl, rfl, rfl, rfl⟩

theorem sameWhere_addOrders {d' : Draft} {cs : List Criterion} (h : d.addOrders cs = .ok d') :
    SameWhere d d' :=
  foldlM_ok_invariant (fun _ _ _ hd h => hd.trans (sameWhere_addOrder h)) (.refl d) h

theorem sameWhere_addJoins {d' : Draft} {cs : List Criterion} (h : d.addJoins cs = .ok d') :
    SameWhere d d' :=
  foldlM_ok_invariant (fun _ _ _ hd h => hd.trans (sameWhere_addJoin h)) (.refl d) h

/-- Fetching related entities changes joins and hints and nothing else. -/
theorem autoFetch_eq (d : Draft) (schema : Schema) (root : Entity) (settings : Settings) :
    ∃ joins joinCriteria hints,
      d.autoFetch schema root settings = { d with joins, joinCriteria, hints } := by
  unfold autoFetch
  cases settings.strategy with
  | joinFetch =>
    simp only [pushFetchJoins]
    generalize fetchClauses _ _ _ = clauses
    induction clauses generalizing d with
    | nil => exact ⟨_, _, _, rfl⟩
    | cons clause clauses ih =>
      obtain ⟨joins, joinCriteria, heq⟩ := pushJoin_eq d clause.1 clause.2
      rw [List.foldl_cons, heq]
      exact ih _
  | fetchHints => exact ⟨_, _, _, rfl⟩
  | disabled => exact ⟨_, _, _, rfl⟩

/-- A new draft is about an entity of the schema and has nothing but joins and hints. -/
theorem create_eq_ok {entity : String} {schema : Schema} {settings : Settings}
    (h : create entity schema settings = .ok d) : ∃ root joins joinCriteria hints,
      schema.entity? entity = some root ∧
        d = { start root.simpleName root.aliasName with joins, joinCriteria, hints } := by
  unfold create at h
  split at h
  · cases h
  · split at h
    · cases h
    · next root hroot =>
      obtain ⟨joins, joinCriteria, hints, heq⟩ :=
        autoFetch_eq (start root.simpleName root.aliasName) schema root settings
      cases h
      exact ⟨root, joins, joinCriteria, hints, hroot, heq⟩

/-- A new draft has no where clause. -/
theorem sameWhere_create {entity : String} {schema : Schema} {settings : Settings}
    (h : create entity schema settings = .ok d) :
    ∃ name rootAlias, SameWhere (start name rootAlias) d := by
  obtain ⟨root, joins, joinCriteria, hints, -, rfl⟩ := create_eq_ok h
  exact ⟨root.simpleName, root.aliasName, rfl, rfl, rfl, rfl, rfl⟩

/-! ## Runs -/

end Draft

/-- The restrictions and brackets that a call brings. -/
def Call.restrictions : Call → List Criterion
  | .add c => [c]
  | .addAll cs => cs
  | .addOrder _ => []
  | .addOrders _ => []
  | .addJoin _ => []
  | .addJoins _ => []
  | .apply set => set.restrictions

/-- The criteria of all kinds that a call brings. -/
def Call.criteria : Call → List Criterion
  | .add c => [c]
  | .addAll cs => cs
  | .addOrder c => [c]
  | .addOrders cs => cs
  | .addJoin c => [c]
  | .addJoins cs => cs
  | .apply set => set.joins ++ set.restrictions ++ set.orders

theorem Call.restrictions_subset (call : Call) : call.restrictions ⊆ call.criteria := by
  intro c hc
  cases call with
  | add | addAll => exact hc
  | apply set => exact List.mem_append_left _ (List.mem_append_right _ hc)
  | _ => cases hc

namespace Draft

variable {d d' : Draft}

/-- To the where clause, a call that succeeds does nothing but add its restrictions and brackets. -/
theorem addAll_of_perform {call : Call} (h : d.perform call = .ok d') : ∃ d₁ d₂,
    SameWhere d d₁ ∧ d₁.addAll call.restrictions = .ok d₂ ∧ SameWhere d₂ d' := by
  cases call with
  | add c =>
    have hadd : d.add c = .ok d' := h
    refine ⟨d, d', .refl d, ?_, .refl d'⟩
    simp only [addAll, Call.restrictions, List.foldlM_cons, List.foldlM_nil, hadd, ok_bind]
    rfl
  | addAll cs => exact ⟨d, d', .refl d, h, .refl d'⟩
  | addOrder c => exact ⟨d, d, .refl d, rfl, sameWhere_addOrder h⟩
  | addOrders cs => exact ⟨d, d, .refl d, rfl, sameWhere_addOrders h⟩
  | addJoin c => exact ⟨d, d, .refl d, rfl, sameWhere_addJoin h⟩
  | addJoins cs => exact ⟨d, d, .refl d, rfl, sameWhere_addJoins h⟩
  | apply set =>
    obtain ⟨d₁, h₁, h⟩ := bind_eq_ok_iff.1 h
    obtain ⟨d₂, h₂, h⟩ := bind_eq_ok_iff.1 h
    exact ⟨d₁, d₂, sameWhere_addJoins h₁, h₂, sameWhere_addOrders h⟩

/-- The criteria of all kinds that the calls of a run bring, as far as these succeed. -/
def taken (d : Draft) (calls : List Call) : List Criterion := brought perform Call.criteria d calls

section
variable {P : Draft → Prop} {Q : Criterion → Prop}
  (hadd : ∀ (d : Draft) (c : Criterion) (d' : Draft), Q c → P d → d.add c = .ok d' → P d')
  (horder : ∀ (d : Draft) (c : Criterion) (d' : Draft), Q c → P d → d.addOrder c = .ok d' → P d')
  (hjoin : ∀ (d : Draft) (c : Criterion) (d' : Draft), Q c → P d → d.addJoin c = .ok d' → P d')
include hadd horder hjoin

theorem perform_keeps {call : Call} (hcs : ∀ c ∈ call.criteria, Q c) (hd : P d)
    (h : d.perform call = .ok d') : P d' := by
  have hbatch {f : Draft → Criterion → Except Fault Draft} {cs : List Criterion} {d d' : Draft}
      (hf : ∀ d c d', Q c → P d → f d c = .ok d' → P d') (hcs : ∀ c ∈ cs, Q c) (hd : P d)
      (h : cs.foldlM f d = .ok d') : P d' :=
    foldlM_ok_invariant_of_mem (fun d c hc d' => hf d c d' (hcs c hc)) hd h
  cases call with
  | add c => exact hadd _ _ _ (hcs c (.head _)) hd h
  | addAll cs => exact hbatch hadd hcs hd h
  | addOrder c => exact horder _ _ _ (hcs c (.head _)) hd h
  | addOrders cs => exact hbatch horder hcs hd h
  | addJoin c => exact hjoin _ _ _ (hcs c (.head _)) hd h
  | addJoins cs => exact hbatch hjoin hcs hd h
  | apply set =>
    obtain ⟨hcs, horders⟩ := List.forall_mem_append.1 hcs
    obtain ⟨hjoins, hrestrictions⟩ := List.forall_mem_append.1 hcs
    obtain ⟨d₁, h₁, h⟩ := bind_eq_ok_iff.1 h
    obtain ⟨d₂, h₂, h⟩ := bind_eq_ok_iff.1 h
    have hd₂ := hbatch hadd hrestrictions (hbatch hjoin hjoins hd h₁) h₂
    exact hbatch horder horders hd₂ h

/-- What the criteria of a kind keep, a run of calls keeps where it takes no others. -/
theorem run_keeps_of_taken {calls : List Call} (hcs : ∀ c ∈ taken d calls, Q c) (hd : P d) :
    P (d.run calls) := by
  refine brought_induct (P := fun done d' => (∀ c ∈ done, Q c) → P d') (l := [])
    (fun done d call d' hd h hcs => ?_) (fun _ => hd) calls hcs
  obtain ⟨hdone, hcall⟩ := List.forall_mem_append.1 hcs
  exact perform_keeps hadd horder hjoin hcall (hd hdone) h

end

/-- What every criterion that is taken keeps, holds after every run of calls. -/
theorem run_keeps {P : Draft → Prop}
    (hadd : ∀ (d : Draft) (c : Criterion) (d' : Draft), P d → d.add c = .ok d' → P d')
    (horder : ∀ (d : Draft) (c : Criterion) (d' : Draft), P d → d.addOrder c = .ok d' → P d')
    (hjoin : ∀ (d : Draft) (c : Criterion) (d' : Draft), P d → d.addJoin c = .ok d' → P d')
    (hd : P d) (calls : List Call) : P (d.run calls) :=
  run_keeps_of_taken (Q := fun _ => True) (fun d c d' _ => hadd d c d')
    (fun d c d' _ => horder d c d') (fun d c d' _ => hjoin d c d') (fun _ _ => trivial) hd

/-- What holds of the where clause of a draft and is kept by every criterion that is taken, holds
after every run of calls. -/
theorem run_invariant {P : Draft → Prop}
    (hadd : ∀ (d : Draft) (c : Criterion) (d' : Draft), P d → d.add c = .ok d' → P d')
    (hsame : ∀ d d', P d → SameWhere d d' → P d') (hd : P d) (calls : List Call) :
    P (d.run calls) :=
  run_keeps hadd (fun _ _ _ hd h => hsame _ _ hd (sameWhere_addOrder h))
    (fun _ _ _ hd h => hsame _ _ hd (sameWhere_addJoin h)) hd calls

/-- No call changes the name that the root goes by. -/
theorem rootAlias_run (d : Draft) (calls : List Call) : (d.run calls).rootAlias = d.rootAlias := by
  apply run_invariant (P := fun d' => d'.rootAlias = d.rootAlias) _ _ rfl
  · intro d₁ c d₂ hd h
    obtain ⟨_, _, _, -, rfl, -⟩ := add_cases h
    exact hd
  · intro d₁ d₂ hd h
    exact h.rootAlias.trans hd

/-- The criteria of the calls of a run that succeed, in order. -/
def accepted (d : Draft) (calls : List Call) : List Criterion :=
  brought perform Call.restrictions d calls

theorem accepted_subset_taken (d : Draft) (calls : List Call) : accepted d calls ⊆ taken d calls := by
  intro c hc
  obtain ⟨call, hcall, hc⟩ := List.mem_flatMap.1 hc
  exact List.mem_flatMap.2 ⟨call, hcall, call.restrictions_subset hc⟩

theorem restrictionCriteria_perform {call : Call} (h : d.perform call = .ok d') :
    d'.restrictionCriteria = d.restrictionCriteria ++ call.restrictions := by
  obtain ⟨d₁, d₂, h₁, h₂, h₃⟩ := addAll_of_perform h
  have hrecord : d₂.restrictionCriteria = d₁.restrictionCriteria ++ call.restrictions :=
    foldlM_ok_record (fun _ _ _ h => (restrictions_add h).2) h₂
  rw [h₃.restrictionCriteria, hrecord, h₁.restrictionCriteria]

/-- A draft records exactly the criteria that are accepted. -/
theorem restrictionCriteria_run (d : Draft) (calls : List Call) :
    (d.run calls).restrictionCriteria = d.restrictionCriteria ++ accepted d calls :=
  record_run (fun d call d' (h : perform d call = .ok d') => restrictionCriteria_perform h) d calls

end Draft

end QueryCriteria.EntityQuery
