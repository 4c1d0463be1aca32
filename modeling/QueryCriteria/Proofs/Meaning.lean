import QueryCriteria.Proofs.DirectorySearch.Condition
import QueryCriteria.Proofs.EntityQuery.Condition
import QueryCriteria.Proofs.EntityQuery.Numbering
/-!
# The meaning of both queries

The where clause of an entity query and the filter of a directory search are made from one
expression (`map_bare_eq`), the first to be read with "and" binding tighter than "or", the second
folded from the left. Where no level mixes connectives they mean the same
(`sameMeaning_of_unmixed`).
-/

open QueryCriteria.DirectorySearch (Entry Filter Mapping)
open QueryCriteria.EntityQuery (Fragment Predicate parameterName whereHolds)

namespace QueryCriteria

/-! ## One expression -/

/-- Both readings of the criteria are the same expression. -/
theorem map_bare_eq {cs : List Criterion} {ts : List (Token Restriction)}
    {x? : Option (Expression Criterion)} {e? : Option (Expression (Nat × Restriction))}
    (hspells : Spells cs ts) (hreads : Reads cs x?)
    (hread : Outline.empty.read? (number 1 ts) = some ⟨[], e?⟩) :
    x?.map (·.map Criterion.bare) = e?.map (·.map fun p => p.2.bare) := by
  obtain ⟨l, hl⟩ := hreads.elim_tokens
  obtain ⟨l', hl'⟩ := Outline.elim_tokens_of_read? hread
  -- Without numbers, connectives and brackets, the comparisons are the same on both sides.
  have hnumber : (number 1 ts).map (Token.map fun p => p.2.bare) =
      ts.map (Token.map Restriction.bare) := by
    have hsnd := congrArg (List.map (Token.map Restriction.bare)) (map_number 1 ts)
    rw [List.map_map] at hsnd
    rw [← hsnd]
    congr 1
    funext t
    cases t <;> rfl
  have htokens : (x?.map (·.map Criterion.bare)).elim [] (·.tokens l) =
      (e?.map (·.map fun p => p.2.bare)).elim [] (·.tokens l') := by
    rw [elim_tokens_map, elim_tokens_map, hl, hl', hspells.map_readingOf, hnumber]
  exact elim_tokens_inj htokens

/-! ## Drafts -/

/-- The predicate of a comparison with `k` others before it. -/
def Criterion.predicateAt (rootAlias : String) (k : Nat) (c : Criterion) : Predicate :=
  ⟨rootAlias ++ "." ++ c.operand.getD "", c.comparison, some (parameterName (k + 1))⟩

/-- The predicates that a draft has written. -/
def EntityQuery.Draft.predicates (d : EntityQuery.Draft) : List Predicate :=
  d.restrictions.filterMap Fragment.predicate?

/-- The where clause and the filter mean the same, and both have the object classes besides. -/
structure SameMeaning (mapping : Mapping) (cs : List Criterion) (d : EntityQuery.Draft)
    (f : Filter) : Prop where
  /-- The predicates are those of the comparisons, one for one and in order. -/
  predicates : d.predicates =
    (cs.filterMap Criterion.compared?).mapIdx (Criterion.predicateAt d.rootAlias)
  /-- No two of them are the same, so that comparisons may have any truth values. -/
  nodup : d.predicates.Nodup
  /-- The comparisons of the filter are those of the criteria too, in the same order. -/
  comparisons : f.comparisons =
    (cs.filterMap Criterion.compared?).map (DirectorySearch.leafOf mapping.attributes)
  /-- Whatever holds of the comparisons and of the object classes, the filter is true exactly when
  all object classes hold and the where clause is true. -/
  holds : ∀ (carries : String → Bool) (truth : Predicate → Bool),
    f.holds carries (d.predicates.map truth) = true ↔
      (∀ name ∈ mapping.objectClasses, Text.trim name ≠ "" → carries (Text.trim name) = true) ∧
        whereHolds truth d.restrictions = true
  /-- An entry is selected exactly when it carries all object classes and the where clause is true
  of what holds of the entry. -/
  selects : ∀ (entry : Entry) (truth : Predicate → Bool),
    d.predicates.map truth = f.comparisons.map (·.selects entry) →
      (f.selects entry = true ↔
        (∀ name ∈ mapping.objectClasses, Text.trim name ≠ "" →
          entry.carries (Text.trim name) = true) ∧ whereHolds truth d.restrictions = true)

/-- Restrictions with values have the predicates of their criteria, numbered on. -/
theorem predicates_numberFrom (rootAlias : String) {cs : List Criterion} {rs : List Restriction}
    (hbare : cs.map Criterion.bare = rs.map Restriction.bare)
    (hvalue : ∀ c ∈ cs, c.value.isSome = true) (n : Nat) :
    (numberFrom (n + 1) rs).map (EntityQuery.Draft.leafOf rootAlias) =
      cs.mapIdx fun k => Criterion.predicateAt rootAlias (n + k) := by
  induction rs generalizing cs n with
  | nil =>
    obtain rfl : cs = [] := List.map_eq_nil_iff.1 hbare
    rfl
  | cons r rs ih =>
    obtain ⟨c, cs, rfl, hc, hcs⟩ := List.map_eq_cons_iff.1 hbare
    have hoperand : c.operand = some r.operand := congrArg Criterion.operand hc
    have hcomparison : c.comparison = r.comparison := congrArg Criterion.comparison hc
    have hv : c.value = r.value := congrArg Criterion.value hc
    have hsome : r.value.isSome = true := hv ▸ hvalue c (.head _)
    obtain ⟨value, hvalue'⟩ := Option.isSome_iff_exists.1 hsome
    have hshift : ∀ k, n + 1 + k = n + (k + 1) := by omega
    rw [numberFrom, if_pos hsome, List.map_cons, ih hcs (fun c' h => hvalue c' (.tail _ h)),
      List.mapIdx_cons]
    simp only [hshift, Nat.add_zero, Restriction.predicate, Criterion.predicateAt, hoperand,
      hcomparison, hvalue', Option.map_some, Option.getD_some]

theorem nodup_predicateAt (rootAlias : String) (cs : List Criterion) :
    (cs.mapIdx (Criterion.predicateAt rootAlias)).Nodup := by
  refine List.pairwise_iff_getElem.2 fun i j hi hj hlt heq => ?_
  rw [List.getElem_mapIdx, List.getElem_mapIdx] at heq
  have hname := Option.some.inj (congrArg Predicate.parameter heq)
  have hnumber := EntityQuery.parameterName_inj hname
  omega

/-! ## The meaning -/

section
variable {mapping : Mapping} {cs : List Criterion}

/-- The filter is made from the expression that the where clause is made from. -/
theorem topFilter_eq {attributes : OrderedMap String} {seed : Filter}
    {x? : Option (Expression Criterion)} {e? : Option (Expression (Nat × Restriction))}
    (h : x?.map (·.map Criterion.bare) = e?.map (·.map fun p => p.2.bare)) :
    topFilter (DirectorySearch.leafOf attributes) seed x? =
      topFilter (fun p => DirectorySearch.leafOf attributes p.2.bare) seed e? := by
  have hx := topFilter_map (DirectorySearch.leafOf attributes) Criterion.bare seed x?
  have he := topFilter_map (DirectorySearch.leafOf attributes) (fun p => p.2.bare) seed e?
  rw [h, he] at hx
  exact hx.symm

/-- One expression uses the connectives that the other does. -/
theorem uses_of_map_eq {x? : Option (Expression Criterion)}
    {e? : Option (Expression (Nat × Restriction))} {c : DirectorySearch.Connective}
    (h : x?.map (·.map Criterion.bare) = e?.map (·.map fun p => p.2.bare))
    (huses : ∀ x, x? = some x → x.Uses c) : ∀ e, e? = some e → e.Uses c := by
  rintro e rfl
  obtain ⟨x, rfl, hmap⟩ := Option.map_eq_some_iff.1 h
  have hx : (x.map Criterion.bare).Uses c := (x.uses_map _ c).2 (huses x rfl)
  rw [hmap] at hx
  exact (e.uses_map _ c).1 hx

theorem predicates_of_follows {d : EntityQuery.Draft} {rootAlias : String}
    {ts : List (Token Restriction)} {o : Outline (Nat × Restriction)}
    (h : EntityQuery.Draft.Follows rootAlias ts o d) (hspells : Spells cs ts)
    (hvalue : ∀ c ∈ cs.filterMap Criterion.compared?, c.value.isSome = true) :
    d.predicates = o.leaves.map (EntityQuery.Draft.leafOf rootAlias) ∧
      d.predicates =
        (cs.filterMap Criterion.compared?).mapIdx (Criterion.predicateAt d.rootAlias) := by
  obtain ⟨rs, hbare, hnumbered, -⟩ := (h.numbers hspells).predicates
  constructor
  · rw [EntityQuery.Draft.predicates, h.writes.restrictions, Outline.predicates_fragments]
  · have hpredicates := predicates_numberFrom rootAlias hbare hvalue 0
    simp only [Nat.zero_add] at hpredicates
    rw [EntityQuery.Draft.predicates, hnumbered, hpredicates, h.rootAlias_eq]

theorem comparisons_of_reads {x? : Option (Expression Criterion)} (h : Reads cs x?) :
    (topFilter (DirectorySearch.leafOf mapping.attributes) mapping.seed x?).comparisons =
      (cs.filterMap Criterion.compared?).map (DirectorySearch.leafOf mapping.attributes) := by
  obtain ⟨l, hl⟩ := h.elim_tokens
  have hleaves : x?.elim [] (·.leaves) = cs.filterMap Criterion.compared? := by
    rw [← leaves_readingOf, ← hl]
    cases x? with
    | none => rfl
    | some x => exact (x.leaves_tokens l).symm
  rw [comparisons_topFilter (DirectorySearch.comparisons_leafOf mapping.attributes) rfl, hleaves]

/-- Where one expression that does not mix connectives has been read by both drafts, the clause and
the filter made from it mean the same. -/
theorem sameMeaning_of_reads {d : EntityQuery.Draft} {rootAlias : String}
    {ts : List (Token Restriction)} {e? : Option (Expression (Nat × Restriction))}
    {x? : Option (Expression Criterion)}
    (hfollows : EntityQuery.Draft.Follows rootAlias ts ⟨[], e?⟩ d) (hspells : Spells cs ts)
    (hreads : Reads cs x?)
    (hvalue : ∀ c ∈ cs.filterMap Criterion.compared?, c.value.isSome = true)
    (hunmixed : ∀ x, x? = some x → x.Uses .and) :
    SameMeaning mapping cs d
      (topFilter (DirectorySearch.leafOf mapping.attributes) mapping.seed x?) := by
  -- Truth values are given to numbered comparisons; the filter is taken from their expression too.
  have hsame := map_bare_eq hspells hreads hfollows.read
  obtain ⟨hleaves, hpredicates⟩ := predicates_of_follows hfollows hspells hvalue
  have hholds (carries : String → Bool) (truth : Predicate → Bool) :
      (topFilter (DirectorySearch.leafOf mapping.attributes) mapping.seed x?).holds carries
          (d.predicates.map truth) = true ↔
        (∀ name ∈ mapping.objectClasses, Text.trim name ≠ "" →
          carries (Text.trim name) = true) ∧ whereHolds truth d.restrictions = true := by
    have hvalues : d.predicates.map truth =
        e?.elim [] fun e => e.leaves.map (truth ∘ EntityQuery.Draft.leafOf rootAlias) := by
      rw [hleaves]
      cases e? with
      | none => rfl
      | some e => exact List.map_map
    have hleaf (p : Nat × Restriction) :=
      DirectorySearch.isComparison_leafOf mapping.attributes p.2.bare
    rw [topFilter_eq hsame, hvalues, holds_topFilter hleaf rfl (uses_of_map_eq hsame hunmixed),
      hfollows.writes.restrictions, whereHolds_fragments, Bool.and_eq_true, Mapping.holds_seed]
  refine ⟨hpredicates, hpredicates ▸ nodup_predicateAt _ _, comparisons_of_reads hreads, hholds, ?_⟩
  intro entry truth htruth
  rw [Filter.selects_eq_holds, ← htruth]
  exact hholds entry.carries truth

end

/-- Let criteria that connect the top level by "and", and each group by one connective, be taken by
both drafts until both compile. Then the where clause and the filter mean the same. -/
theorem sameMeaning_of_unmixed {entity : String} {schema : Schema} {settings : Settings}
    {mapping : Mapping} {d d' : EntityQuery.Draft} {e e' : DirectorySearch.Draft}
    {cs : List Criterion} {query : EntityQuery} {search : DirectorySearch}
    (hd : EntityQuery.Draft.create entity schema settings = .ok d)
    (he : DirectorySearch.Draft.create mapping = .ok e) (hadd : d.addAll cs = .ok d')
    (hadd' : e.addAll cs = .ok e') (hcompile : d'.compile = .ok query)
    (hcompile' : e'.compile = .ok search)
    (hunmixed : ∀ x, Reads cs (some x) → x.Uses .and) :
    query.text = d'.text ∧ ∃ x? f, Reads cs x? ∧ e'.filter? = some f ∧ search.filter = f.text ∧
      SameMeaning mapping cs d' f := by
  obtain ⟨-, hnew⟩ := EntityQuery.Draft.follows_create hd
  obtain ⟨ts, hspells⟩ := EntityQuery.Draft.spells_of_addAll hadd
  obtain ⟨o, hread, hfollows⟩ := (hadd ▸ EntityQuery.Draft.addAll_agrees hnew hspells).of_ok
  obtain ⟨htext, e?, rfl⟩ := hfollows.of_compile hcompile
  have htracks : DirectorySearch.Draft.Tracks mapping e' :=
    foldlM_ok_invariant (fun _ _ _ => DirectorySearch.Draft.tracks_add)
      (DirectorySearch.Draft.tracks_create he) hadd'
  obtain ⟨x?, hreads, hfilter, hsearch⟩ := htracks.of_compile hcompile'
  have hrecord : e'.restrictionCriteria = cs := by
    rw [DirectorySearch.Draft.restrictionCriteria_addAll hadd',
      (DirectorySearch.Draft.create_eq_ok he).2.2.2, List.nil_append]
  rw [hrecord] at hreads
  refine ⟨htext, x?, _, hreads, hfilter, hsearch,
    sameMeaning_of_reads hfollows hspells hreads ?_ ?_⟩
  · intro c hc
    obtain ⟨c', hc', hcompared⟩ := List.mem_filterMap.1 hc
    exact DirectorySearch.value_isSome_of_leafFor? (htracks.leaves c' (hrecord ▸ hc') c hcompared)
  · rintro x rfl
    exact hunmixed x hreads

/-- Criteria that connect a group by "or" and the top level by "and". The operator of the first says
nothing. -/
theorem sameMeaning_of_unmixed_group : ∃ d e,
    EntityQuery.Draft.create "Person" (Schema.ofList [⟨"Person", []⟩]) ⟨.disabled, 3⟩ = .ok d ∧
    DirectorySearch.Draft.create .people = .ok e ∧
    let ann := (Criterion.comparing "name" .equal (.string "Ann")).withLogical .or
    let bob := (Criterion.comparing "name" .notEqual (.string "Bob")).withLogical .and
    let mail := (Criterion.comparing "mail" .greaterThanOrEqual (.string "m")).withLogical .or
    let cs : List Criterion :=
      [ann, bob.withEnclosure .opening, mail.withEnclosure .closing]
    ∃ d' e' query search, d.addAll cs = .ok d' ∧ e.addAll cs = .ok e' ∧
      d'.compile = .ok query ∧ e'.compile = .ok search ∧
      (∀ x, Reads cs (some x) → x.Uses .and) ∧
      query.text = "select person from Person person where person.name = :param1 and " ++
        "(person.name <> :param2 or person.mail >= :param3)" ∧
      search.filter =
        "(&(&(&(objectclass=person)(objectclass=top))(cn=Ann))(|(!cn=Bob)(mail>=m)))" ∧
      query.text = d'.text ∧ ∃ x? f, Reads cs x? ∧ e'.filter? = some f ∧
        search.filter = f.text ∧ SameMeaning .people cs d' f := by
  have hd : EntityQuery.Draft.create "Person" (Schema.ofList [⟨"Person", []⟩]) ⟨.disabled, 3⟩ =
      .ok _ := rfl
  have he : DirectorySearch.Draft.create .people = .ok _ := rfl
  refine ⟨_, _, hd, he, ?_⟩
  intro ann bob mail cs
  have hunmixed : ∀ x, Reads cs (some x) → x.Uses .and := by
    have hreads : Reads cs (some (.connected (.single (.leaf ann)) .and
        (.group (.connected (.single (.leaf (bob.withEnclosure .opening))) .or
          (.leaf (mail.withEnclosure .closing)))))) := ⟨.or, rfl⟩
    intro x hx
    obtain rfl := Option.some.inj (hx.unique hreads)
    exact ⟨rfl, trivial, .or, rfl, trivial, trivial⟩
  exact ⟨_, _, _, _, rfl, rfl, rfl, rfl, hunmixed, by decide, by decide,
    sameMeaning_of_unmixed hd he rfl rfl rfl rfl hunmixed⟩

end QueryCriteria
