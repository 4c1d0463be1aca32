import QueryCriteria.Proofs.EntityQuery.Valuation
import QueryCriteria.Proofs.EntityQuery.Views
import QueryCriteria.Proofs.Meaning
/-!
# What goes on behind a draft

What a draft takes on top of what it has read: it brings predicates and parameters behind those that
are there (`Follows.predicates_append`, `Follows.parameters_append`). Two drafts in the same place
go on alike, whatever they have read before (`Follows.runsAlike`).
-/

namespace QueryCriteria

/-- What is spelled behind a part of criteria is spelled by the rest of them. -/
theorem Spells.exists_append {cs cs' : List Criterion} {ts us : List (Token Restriction)}
    (h : Spells cs ts) (h' : Spells (cs ++ cs') us) : ∃ vs, us = ts ++ vs ∧ Spells cs' vs := by
  induction h generalizing us with
  | nil => exact ⟨us, rfl, h'⟩
  | cons hc _ ih =>
    cases h' with
    | cons hc' hs' =>
      obtain ⟨vs, rfl, hvs⟩ := ih hs'
      exact ⟨vs, by rw [hc.unique hc', List.append_assoc], hvs⟩

theorem valued_number (values : List Bool) (n : Nat) (ts : List (Token Restriction)) :
    Token.valued values (number n ts) = Token.valued values ts := by
  rw [← Token.valued_map Prod.snd, map_number]

theorem numberFrom_append (n : Nat) (rs rs' : List Restriction) :
    numberFrom n (rs ++ rs') = numberFrom n rs ++ numberFrom (n + (valuesOf rs).length) rs' := by
  induction rs generalizing n with
  | nil => rfl
  | cons r rs ih =>
    rw [List.cons_append, numberFrom, numberFrom, ih]
    cases hv : r.value with
    | none => simp [valuesOf, hv]
    | some value => simp [valuesOf, hv, Nat.add_assoc, Nat.add_comm]

/-- A term is read into its place, whatever the numbers are. -/
theorem Outline.exists_read?_number {o : Outline (Nat × Restriction)} {l : Logical}
    {s : Slot (Nat × Restriction)} (hs : o.slot? l = some s) (t : Term Restriction) (n : Nat) :
    ∃ outer e, o.read? (number n (t.tokens l)) = some ⟨outer, some e⟩ ∧
      outer.length = o.outer.length := by
  have hread := read?_map Prod.snd o (number n (t.tokens l))
  have hslot : (o.bind fun p => .leaf p.2).slot? l = some (s.bind fun p => .leaf p.2) := by
    rw [slot?_bind, hs]
    rfl
  rw [map_number, t.read?_tokens hslot] at hread
  obtain ⟨⟨outer, e?⟩, ho, heq⟩ := Option.map_eq_some_iff.1 hread.symm
  obtain ⟨houter, hcurrent⟩ := Outline.mk.inj heq
  obtain ⟨e, rfl, -⟩ := Option.map_eq_some_iff.1 hcurrent
  refine ⟨outer, e, ho, ?_⟩
  have hlength := congrArg List.length houter
  simpa [Outline.bind] using hlength

namespace EntityQuery.Draft

variable {rootAlias : String} {ts us : List (Token Restriction)}
  {o o' : Outline (Nat × Restriction)} {d d' : Draft}

/-! ## Taken tokens -/

/-- The predicates of a draft, one for each restriction that it has read. -/
theorem Follows.length_predicates (h : Follows rootAlias ts o d) :
    d.predicates.length = (restrictionsOf ts).length := by
  rw [predicates, h.predicates_eq, List.length_map, ← List.length_map Prod.snd,
    map_snd_numberFrom]

/-- Behind a term the next one needs a connective. -/
theorem Follows.place_eq {outer : List (Slot (Nat × Restriction))}
    {e : Expression (Nat × Restriction)} (h : Follows rootAlias ts ⟨outer, some e⟩ d) :
    place d = (outer.length, some false) := by
  obtain ⟨f, hf, hopening⟩ := Outline.getLast?_fragments_some (leafOf rootAlias) outer e
  rw [place, h.writes.openGroups, h.writes.restrictions, hf]
  simp [hopening, Outline.depth]

/-- Where there is a place for one comparison, there is one for any term, and then for the same
connectives. -/
theorem Follows.of_term (h : Follows rootAlias ts o d) {l : Logical}
    {s : Slot (Nat × Restriction)} (hs : o.slot? l = some s) {cs : List Criterion}
    {t : Term Restriction} (hcs : Spells cs (t.tokens l)) : ∃ o' d', d.addAll cs = .ok d' ∧
      Follows rootAlias (ts ++ t.tokens l) o' d' ∧ place d' = (d.openGroups, some false) := by
  obtain ⟨outer, e, hread, houter⟩ := Outline.exists_read?_number hs t (nextNumber ts)
  have hagrees := addAll_agrees h hcs
  rw [hread] at hagrees
  obtain ⟨d', hadd, hfollows⟩ := hagrees.of_some
  refine ⟨_, d', hadd, hfollows, ?_⟩
  rw [hfollows.place_eq, houter, h.writes.openGroups]
  rfl

/-- Such a place takes any single comparison with its connective. -/
theorem Follows.of_single (h : Follows rootAlias ts o d) {l : Logical}
    {s : Slot (Nat × Restriction)} (hs : o.slot? l = some s) (r : Restriction) :
    ∃ o' d', d.add (r.criterion l .undefined) = .ok d' ∧
      Follows rootAlias (ts ++ [.comparison l r]) o' d' ∧
      place d' = (d.openGroups, some false) := by
  have hsingle := (Says.restriction r l).spells
  obtain ⟨o', d', hall, hfollows, hplace⟩ := h.of_term hs (t := .leaf r) hsingle
  obtain ⟨d₁, hadd, hall⟩ := bind_eq_ok_iff.1 hall
  cases hall
  exact ⟨o', _, hadd, hfollows, hplace⟩

/-- What is read behind other tokens brings predicates behind theirs. -/
theorem Follows.predicates_eq_append (h : Follows rootAlias ts o d)
    (h' : Follows rootAlias (ts ++ us) o' d') : d'.predicates = d.predicates ++
      (numberFrom (1 + (valuesOf (restrictionsOf ts)).length) (restrictionsOf us)).map
        (leafOf rootAlias) := by
  rw [predicates, h'.predicates_eq, restrictionsOf_append, numberFrom_append, List.map_append,
    ← h.predicates_eq, predicates]

/-- They are the predicates of its criteria, numbered on. -/
theorem Follows.predicates_append (h : Follows rootAlias ts o d)
    (h' : Follows rootAlias (ts ++ us) o' d') {cs : List Criterion}
    (hbare : cs.map Criterion.bare = (restrictionsOf us).map Restriction.bare)
    (hvalue : ∀ c ∈ cs, c.value.isSome = true) :
    d'.predicates = d.predicates ++ cs.mapIdx fun i =>
      Criterion.predicateAt d.rootAlias (d.parameters.toList.length + i) := by
  have hparameters : (valuesOf (restrictionsOf ts)).length = d.parameters.toList.length := by
    rw [h.parameters, length_named]
  have hnumbered := predicates_numberFrom rootAlias hbare hvalue d.parameters.toList.length
  rw [h.predicates_eq_append h', hparameters, Nat.add_comm 1, hnumbered, h.rootAlias_eq]

/-- Their paths and comparisons are those of what has been read. -/
theorem Follows.exists_predicates (h : Follows rootAlias ts o d)
    (h' : Follows rootAlias (ts ++ us) o' d') : ∃ more : List Predicate,
      d'.predicates = d.predicates ++ more ∧ more.map (fun p => (p.path, p.comparison)) =
        (restrictionsOf us).map fun r => (rootAlias ++ "." ++ r.operand, r.comparison) := by
  refine ⟨_, h.predicates_eq_append h', ?_⟩
  have hsnd := map_snd_numberFrom (1 + (valuesOf (restrictionsOf ts)).length) (restrictionsOf us)
  have hmap := congrArg (List.map fun r => (rootAlias ++ "." ++ r.operand, r.comparison)) hsnd
  rw [List.map_map] at hmap
  rw [List.map_map]
  exact hmap

/-- What is read behind other tokens binds its values, numbered on. -/
theorem Follows.parameters_append (h : Follows rootAlias ts o d)
    (h' : Follows rootAlias (ts ++ us) o' d') :
    d'.parameters.toList = d.parameters.toList ++ (valuesOf (restrictionsOf us)).mapIdx
      fun i value => (parameterName (d.parameters.toList.length + i + 1), value) := by
  have hshift : ∀ i n : Nat, i + n + 1 = n + i + 1 := by omega
  rw [h'.parameters, h.parameters, restrictionsOf_append, valuesOf_append, named,
    List.mapIdx_append, length_named]
  simp only [hshift]
  rfl

/-- The condition of a draft without open groups has the value of what is read from the values in
place of its comparisons. -/
theorem Follows.exists_whereValue {e? : Option (Expression (Nat × Restriction))}
    (h : Follows rootAlias ts ⟨[], e?⟩ d) {values : List Bool}
    (hlength : values.length = (restrictionsOf ts).length) : ∃ b? : Option (Expression Bool),
      Outline.empty.read? (Token.valued values ts) = some ⟨[], b?⟩ ∧
      whereValue values d.restrictions = b?.elim true (·.holds id) := by
  have hleaves : values.length = ((number 1 ts).filterMap Token.leaf?).length := by
    rw [hlength, leaves_number, ← List.length_map Prod.snd, map_snd_numberFrom]
  rw [h.writes.restrictions, ← valued_number values 1 ts]
  exact QueryCriteria.exists_whereValue (leafOf rootAlias) h.read hleaves

/-- A run reads the criteria that it accepts behind what has been read. -/
theorem Follows.run_accepted (h : Follows rootAlias ts o d) (hts : Spells d.restrictionCriteria ts)
    (calls : List Call) : ∃ us o', Spells (accepted d calls) us ∧
      Follows rootAlias (ts ++ us) o' (d.run calls) := by
  obtain ⟨us, o', hspells, hfollows, -⟩ := h.run hts calls
  rw [restrictionCriteria_run] at hspells
  obtain ⟨vs, heq, hvs⟩ := hts.exists_append hspells
  obtain rfl := List.append_cancel_left heq
  exact ⟨us, o', hvs, hfollows⟩

/-! ## Going on alike -/

/-- The calls fare alike behind two drafts, both compile or neither, and the comparisons behind are
the same, but for the numbers of their parameters. -/
structure RunsAlike (d d' : Draft) (calls : List Call) : Prop where
  outcomes : outcomes perform d calls = outcomes perform d' calls
  compiles : (∃ query, (d.run calls).compile = .ok query) ↔
    ∃ query, (d'.run calls).compile = .ok query
  predicates : ∃ more more' : List Predicate, (d.run calls).predicates = d.predicates ++ more ∧
    (d'.run calls).predicates = d'.predicates ++ more' ∧
    more.map (fun p => (p.path, p.comparison)) = more'.map fun p => (p.path, p.comparison)

/-- In the same place, two drafts go on alike and read the same behind what they have read. -/
theorem Follows.runsAlike (h : Follows rootAlias ts o d) (hts : Spells d.restrictionCriteria ts)
    (h' : Follows rootAlias us o' d') (hus : Spells d'.restrictionCriteria us)
    (hplace : place d = place d') (calls : List Call) : RunsAlike d d' calls ∧
      ∃ vs p p', Follows rootAlias (ts ++ vs) p (d.run calls) ∧
        Follows rootAlias (us ++ vs) p' (d'.run calls) := by
  obtain ⟨houtcomes, hplaces⟩ := suffices_place.run calls hplace
  obtain ⟨vs, p, hvs, hd⟩ := h.run_accepted hts calls
  obtain ⟨vs', p', hvs', hd'⟩ := h'.run_accepted hus calls
  -- Both runs accept the same criteria, and these spell one thing.
  have haccepted : accepted d calls = accepted d' calls := brought_of_outcomes houtcomes
  rw [haccepted] at hvs
  obtain rfl := hvs.unique hvs'
  refine ⟨⟨houtcomes, compile_of_place hplaces, ?_⟩, vs, p, p', hd, hd'⟩
  obtain ⟨more, heq, hmore⟩ := h.exists_predicates hd
  obtain ⟨more', heq', hmore'⟩ := h'.exists_predicates hd'
  exact ⟨more, more', heq, heq', hmore.trans hmore'.symm⟩

/-- Where one of them compiles, both have read whole expressions. -/
theorem RunsAlike.of_compile {calls : List Call} (hruns : RunsAlike d d' calls)
    (h : Follows rootAlias ts o (d.run calls)) (h' : Follows rootAlias us o' (d'.run calls))
    {query : EntityQuery} (hquery : (d.run calls).compile = .ok query) :
    query.text = (d.run calls).text ∧ ∃ e? e'?, o = ⟨[], e?⟩ ∧ o' = ⟨[], e'?⟩ := by
  obtain ⟨htext, e?, rfl⟩ := h.of_compile hquery
  obtain ⟨query', hquery'⟩ := hruns.compiles.1 ⟨query, hquery⟩
  obtain ⟨-, e'?, rfl⟩ := h'.of_compile hquery'
  exact ⟨htext, e?, e'?, rfl, rfl⟩

end EntityQuery.Draft

end QueryCriteria
