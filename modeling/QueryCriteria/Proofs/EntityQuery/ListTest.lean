import QueryCriteria.Proofs.EntityQuery.Continuation
import QueryCriteria.Proofs.Spread
/-!
# Tests against lists in entity queries

A draft that takes one comparison of a test against a list takes the whole list, a comparison and a
parameter for each value (`takesList_of_add`). Whatever comes behind, its where clause is that with
the one comparison, true of what the test says of the many (`Follows.goesOnAlike`).
-/

namespace QueryCriteria

namespace EntityQuery.Draft

variable {rootAlias : String} {ts : List (Token Restriction)} {o : Outline (Nat × Restriction)}
  {d d' : Draft}

/-! ## Taking a list -/

/-- The draft has taken a comparison for each of some values, in order. -/
structure TakesList (test : ListTest) (operand : String) (values : List Value) (d d' : Draft) :
    Prop where
  predicates : d'.predicates = d.predicates ++ (values.map (test.criterion operand)).mapIdx fun i =>
    Criterion.predicateAt d.rootAlias (d.parameters.toList.length + i)
  parameters : d'.parameters.toList = d.parameters.toList ++ values.mapIdx fun i value =>
    (parameterName (d.parameters.toList.length + i + 1), value)
  openGroups : d'.openGroups = d.openGroups

variable {test : ListTest} {operand : String} {logical : Logical} {value : Value}
  {values : List Value}

/-- The operand of a comparison that is taken is not blank, and there is a place for it. -/
theorem Follows.of_add_criterion (h : Follows rootAlias ts o d)
    (hadd : d.add ((test.criterion operand value).withLogical logical) = .ok d') :
    Text.isBlank operand = false ∧ ∃ s, o.slot? logical = some s := by
  have hrole := test.role_criterion operand logical value
  obtain ⟨_, _, _, -, -, ⟨-, p, hp⟩ | ⟨hr, -⟩⟩ := add_cases hadd
  · obtain ⟨r, heq⟩ := exists_restriction hrole hp
    have hsays : Says ((test.criterion operand value).withLogical logical)
        [.comparison logical r] := heq ▸ .restriction r logical
    obtain ⟨o', ho, -⟩ := (hadd ▸ add_agrees h hsays).of_ok
    have hoperand : operand = r.operand := Option.some.inj (congrArg Criterion.operand heq)
    refine ⟨hoperand ▸ r.operand_not_blank, ?_⟩
    rw [number, Outline.read?_comparison] at ho
    obtain ⟨s, hs, -⟩ := Option.bind_eq_some_iff.1 ho
    exact ⟨s, hs⟩
  · cases hrole.symm.trans hr

section
variable (hoperand : Text.isBlank operand = false)
include hoperand

theorem restrictionsOf_spread (c : DirectorySearch.Connective) (l : Logical) :
    restrictionsOf ((Term.spread c (test.restriction hoperand value)
      (values.map (test.restriction hoperand))).tokens l) =
      (value :: values).map (test.restriction hoperand) := by
  rw [restrictionsOf, Term.leaves_tokens, Term.leaves_spread, List.map_cons]

theorem valuesOf_restrictions (values : List Value) :
    valuesOf (values.map (test.restriction hoperand)) = values := by
  rw [valuesOf, List.filterMap_map]
  exact List.filterMap_some

/-- What has been read behind the rest is the list. -/
theorem Follows.takesList {l : Logical} {o' : Outline (Nat × Restriction)}
    (h : Follows rootAlias ts o d)
    (h' : Follows rootAlias (ts ++ (Term.spread test.connective (test.restriction hoperand value)
      (values.map (test.restriction hoperand))).tokens l) o' d')
    (hopen : d'.openGroups = d.openGroups) : TakesList test operand (value :: values) d d' := by
  have hrestrictions : restrictionsOf ((Term.spread test.connective
      (test.restriction hoperand value) (values.map (test.restriction hoperand))).tokens l) =
      (value :: values).map (test.restriction hoperand) :=
    restrictionsOf_spread hoperand test.connective l
  refine ⟨h.predicates_append h' ?_ ?_, ?_, hopen⟩
  · rw [hrestrictions, List.map_map, List.map_map]
    rfl
  · intro c hc
    obtain ⟨v, -, rfl⟩ := List.mem_map.1 hc
    rfl
  · rw [h.parameters_append h', hrestrictions, valuesOf_restrictions hoperand]

end

/-! ## Going on behind a list -/

/-- Behind several comparisons that a draft has taken, calls fare as they do behind a single one
taken in their place, and the condition is true when it is true of what the test says of them. -/
structure GoesOnAlike (test : ListTest) (before count : Nat) (d d' : Draft) (calls : List Call) :
    Prop where
  outcomes : outcomes perform d calls = outcomes perform d' calls
  compiles : (∃ query, (d.run calls).compile = .ok query) ↔
    ∃ query, (d'.run calls).compile = .ok query
  /-- The comparisons behind are the same, but for the numbers of their parameters. -/
  predicates : ∃ more more' : List Predicate, (d.run calls).predicates = d.predicates ++ more ∧
    (d'.run calls).predicates = d'.predicates ++ more' ∧
    more.map (fun p => (p.path, p.comparison)) = more'.map fun p => (p.path, p.comparison)
  /-- Whatever values the comparisons before, those of the list and those behind have. -/
  conditions : ∀ query, (d.run calls).compile = .ok query →
    query.text = (d.run calls).text ∧ ∀ xs ys zs : List Bool,
      xs.length = before → ys.length = count →
      (xs ++ ys ++ zs).length = (d.run calls).predicates.length →
      whereValue (xs ++ ys ++ zs) (d.run calls).restrictions =
        whereValue (xs ++ test.holds ys :: zs) (d'.run calls).restrictions

/-- Of a list and of a single restriction in its place, a condition is true alike. -/
theorem Follows.whereValue_eq {us : List (Token Restriction)} {l : Logical} {r r' : Restriction}
    {rs : List Restriction} {e? e'? : Option (Expression (Nat × Restriction))}
    (h : Follows rootAlias (ts ++ (Term.spread test.connective r rs).tokens l ++ us) ⟨[], e?⟩ d)
    (h' : Follows rootAlias (ts ++ .comparison l r' :: us) ⟨[], e'?⟩ d') {xs ys zs : List Bool}
    (hxs : xs.length = (restrictionsOf ts).length) (hys : ys.length = rs.length + 1)
    (hlength : (xs ++ ys ++ zs).length = (restrictionsOf
      (ts ++ (Term.spread test.connective r rs).tokens l ++ us)).length) :
    whereValue (xs ++ ys ++ zs) d.restrictions =
      whereValue (xs ++ test.holds ys :: zs) d'.restrictions := by
  obtain ⟨b?, hread, hvalue⟩ := h.exists_whereValue hlength
  obtain ⟨b'?, hread', hvalue'⟩ := h'.exists_whereValue (ListTest.length_single hys hlength _)
  rw [hvalue, hvalue', ListTest.elim_eq ListTest.holds_inHole hxs hys hread hread']

/-- Where two drafts have read a list and a single restriction in its place, they go on alike. -/
theorem Follows.goesOnAlike {l : Logical} {r r' : Restriction} {rs : List Restriction}
    {o₁ o₂ : Outline (Nat × Restriction)} {d₁ d₂ : Draft} (h : Follows rootAlias ts o d)
    (h₁ : Follows rootAlias (ts ++ (Term.spread test.connective r rs).tokens l) o₁ d₁)
    (hts₁ : Spells d₁.restrictionCriteria (ts ++ (Term.spread test.connective r rs).tokens l))
    (h₂ : Follows rootAlias (ts ++ [.comparison l r']) o₂ d₂)
    (hts₂ : Spells d₂.restrictionCriteria (ts ++ [.comparison l r'])) (hplace : place d₁ = place d₂)
    (calls : List Call) : GoesOnAlike test d.predicates.length (rs.length + 1) d₁ d₂ calls := by
  obtain ⟨hruns, us, o₁', o₂', h₁', h₂'⟩ := h₁.runsAlike hts₁ h₂ hts₂ hplace calls
  refine ⟨hruns.outcomes, hruns.compiles, hruns.predicates, ?_⟩
  intro query hquery
  obtain ⟨htext, e₁?, e₂?, rfl, rfl⟩ := hruns.of_compile h₁' h₂' hquery
  refine ⟨htext, fun xs ys zs hxs hys hlength => ?_⟩
  rw [List.append_assoc, List.singleton_append] at h₂'
  rw [h.length_predicates] at hxs
  rw [h₁'.length_predicates] at hlength
  exact h₁'.whereValue_eq h₂' hxs hys hlength

/-- A draft that takes one comparison takes a list in its place, and goes on alike. -/
theorem takesList_of_add {entity : String} {schema : Schema} {settings : Settings} {d₀ : Draft}
    (h : create entity schema settings = .ok d₀) (before : List Call)
    (hadd : (d₀.run before).add ((test.criterion operand value).withLogical logical) = .ok d') :
    ∃ d₁, (d₀.run before).addAll (test.listed logical operand value values) = .ok d₁ ∧
      TakesList test operand (value :: values) (d₀.run before) d₁ ∧
      ∀ v d₂, (d₀.run before).add ((test.criterion operand v).withLogical logical) = .ok d₂ →
        ∀ calls, GoesOnAlike test (d₀.run before).predicates.length (values.length + 1) d₁ d₂
          calls := by
  obtain ⟨hnone, hnew⟩ := follows_create h
  obtain ⟨ts, o, hts, hfollows, -⟩ := hnew.run hnone before
  rw [List.nil_append] at hts hfollows
  obtain ⟨hoperand, s, hs⟩ := hfollows.of_add_criterion hadd
  have hlisted := test.spells_listed logical hoperand value values
  obtain ⟨o₁, d₁, hall, h₁, hplace₁⟩ := hfollows.of_term hs hlisted
  have hrecord₁ : d₁.restrictionCriteria = _ ++ _ :=
    foldlM_ok_record (fun _ _ _ h => (restrictions_add h).2) hall
  refine ⟨d₁, hall, hfollows.takesList hoperand h₁ (congrArg Prod.fst hplace₁), ?_⟩
  intro v d₂ hd₂ calls
  -- The single comparison is a term too, so that it leaves the draft in the same place.
  have hsingle := (Says.restriction (test.restriction hoperand v) logical).spells
  obtain ⟨o₂, d₂', hone, h₂, hplace₂⟩ := hfollows.of_single hs (test.restriction hoperand v)
  obtain rfl : d₂' = d₂ := Except.ok.inj (hone.symm.trans hd₂)
  have hrecord₂ := (restrictions_add hd₂).2
  have hgoesOn := hfollows.goesOnAlike h₁ (hrecord₁ ▸ hts.append hlisted) h₂
    (hrecord₂ ▸ hts.append hsingle) (hplace₁.trans hplace₂.symm) calls
  rwa [List.length_map] at hgoesOn

end EntityQuery.Draft

end QueryCriteria
