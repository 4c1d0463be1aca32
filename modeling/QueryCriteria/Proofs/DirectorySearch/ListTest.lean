import QueryCriteria.Proofs.DirectorySearch.Reference
import QueryCriteria.Proofs.DirectorySearch.Valuation
import QueryCriteria.Proofs.DirectorySearch.Views
/-!
# Tests against lists in directory searches

A draft that takes each comparison of a test against a list takes the whole list, and holds one leaf
for each value (`Tracks.takesList`). Whatever comes behind, its filter is that with a single one,
true of what the test says of the many (`Tracks.goesOnAlike`).
-/

open QueryCriteria.DirectorySearch (leafOf)

namespace QueryCriteria

/-- Criteria that read as an expression are read as it. -/
theorem Reads.read?_eq {cs : List Criterion} {e? : Option (Expression Criterion)}
    (h : Reads cs e?) : Outline.empty.read? (readingOf cs) = some ⟨[], e?⟩ := by
  cases e? with
  | none =>
    obtain rfl : cs = [] := h
    rfl
  | some e =>
    obtain ⟨l, hl⟩ := h
    rw [hl]
    exact e.read?_tokens_empty l

namespace DirectorySearch.Draft

variable {mapping : Mapping} {d d' : Draft} {cs : List Criterion} {test : ListTest}
  {operand : String} {logical : Logical} {value : Value} {values : List Value}

/-! ## Frames -/

/-- A member that is attached changes the innermost frame, and not its logical operator. -/
theorem attach_eq_ok {frames frames' : List Frame} {l : Logical} {member : Filter}
    (h : attach frames l member = .ok frames') : ∃ frame outer frame',
      frames = frame :: outer ∧ frames' = frame' :: outer ∧ frame'.logical = frame.logical := by
  cases frames with
  | nil => cases h
  | cons frame outer =>
    obtain ⟨frame', hframe, h⟩ := bind_eq_ok_iff.1 h
    obtain ⟨_, -, hframe⟩ := bind_eq_ok_iff.1 hframe
    cases h
    cases hframe
    exact ⟨frame, outer, _, rfl, rfl, rfl⟩

/-- A comparison that is taken is attached. -/
theorem attach_of_add
    (h : d.add ((test.criterion operand value).withLogical logical) = .ok d') :
    ∃ member, attach d.frames logical member = .ok d'.frames := by
  obtain ⟨f?, frames, hf, hplace, rfl⟩ := add_eq_ok_iff.1 h
  have hrole := test.role_criterion operand logical value
  rcases leaf?_eq_ok hf with ⟨f, rfl, -, -⟩ | ⟨-, hr⟩
  · exact ⟨f, hplace⟩
  · cases hrole.symm.trans hr

/-- A list that is taken is attached as a whole. -/
theorem attach_of_addAll (h : d.addAll (test.listed logical operand value values) = .ok d') :
    ∃ member, attach d.frames logical member = .ok d'.frames := by
  cases values with
  | nil =>
    obtain ⟨d₁, hadd, h⟩ := bind_eq_ok_iff.1 h
    cases h
    exact attach_of_add hadd
  | cons v values =>
    -- The group stands in a frame of its own until the last bracket closes it.
    obtain ⟨d₁, hopening, h⟩ := bind_eq_ok_iff.1 h
    have hrest : (test.criterion operand value :: (v :: values).map (fun v =>
        (test.criterion operand v).withLogical test.connective.logical) ++
        [Criterion.marker .closing]).foldlM add d₁ = .ok d' := h
    rw [List.foldlM_append] at hrest
    obtain ⟨d₂, hcomparisons, hclosing⟩ := bind_eq_ok_iff.1 hrest
    obtain ⟨d₃, hclosing, hd₃⟩ := bind_eq_ok_iff.1 hclosing
    cases hd₃
    obtain ⟨frame, hframes, hlogical⟩ :
        ∃ frame, d₂.frames = frame :: d.frames ∧ frame.logical = logical := by
      refine foldlM_ok_invariant_of_mem
        (P := fun d' => ∃ frame, d'.frames = frame :: d.frames ∧ frame.logical = logical)
        ?_ ?_ hcomparisons
      · rintro s c hc s' ⟨frame, hframes, hlogical⟩ hadd
        obtain ⟨v, l, rfl⟩ : ∃ v l, c = (test.criterion operand v).withLogical l := by
          rcases List.mem_cons.1 hc with rfl | hc
          · exact ⟨value, .undefined, rfl⟩
          · obtain ⟨v, -, rfl⟩ := List.mem_map.1 hc
            exact ⟨v, _, rfl⟩
        obtain ⟨member, hattach⟩ := attach_of_add hadd
        obtain ⟨frame₁, outer, frame₂, hs, hs', hsame⟩ := attach_eq_ok hattach
        obtain ⟨rfl, rfl⟩ := List.cons.inj (hframes.symm.trans hs)
        exact ⟨frame₂, hs', hsame.trans hlogical⟩
      · obtain ⟨f?, frames, hf, hplace, rfl⟩ := add_eq_ok_iff.1 hopening
        obtain ⟨_, -, hplace⟩ := bind_eq_ok_iff.1 hplace
        cases hplace
        exact ⟨_, rfl, rfl⟩
    obtain ⟨f?, frames, hf, hplace, rfl⟩ := add_eq_ok_iff.1 hclosing
    cases hf
    have hclose : close d₂.frames = .ok frames := hplace
    rw [hframes, close] at hclose
    split at hclose
    · cases hclose
    · split at hclose
      · cases hclose
      · next filter _ => exact ⟨filter, hlogical ▸ hclose⟩

/-! ## Taking a list -/

/-- Criteria that bring something are taken when the outline goes on with what they read as. -/
theorem addAll_agrees {seed : Filter} {o : Outline Criterion}
    (h : Holds (leafOf d.attributes) seed o d.frames)
    (hcs : ∀ c ∈ cs, ∃ f?, d.leaf? c = .ok f?) :
    Agrees (fun o d' => Holds (leafOf d.attributes) seed o d'.frames)
      (o.read? (readingOf cs)) (d.addAll cs) := by
  induction cs generalizing o d with
  | nil => exact .ok h
  | cons c cs ih =>
    obtain ⟨hc, hcs⟩ := List.forall_mem_cons.1 hcs
    obtain ⟨f?, hf⟩ := hc
    obtain ⟨rfl, hc, -⟩ := leaf?_eq_compared? hf
    rw [readingOf_cons, Outline.read?_append, addAll, List.foldlM_cons]
    refine (add_agrees h hf hc).bind fun o' d' h' => ?_
    obtain ⟨hframes, hattributes⟩ := h'
    rw [← hattributes] at hframes ⊢
    exact ih hframes fun c hc => by rw [leaf?_of_attributes hattributes]; exact hcs c hc

/-- The draft has taken a comparison for each of some values, in order. -/
structure TakesList (test : ListTest) (operand : String) (values : List Value) (d d' : Draft) :
    Prop where
  comparisons : ∃ leaves : List Filter,
    leaves.map Except.ok = values.map (fun value => d.leaf (test.criterion operand value)) ∧
      comparisonsOf d'.frames = comparisonsOf d.frames ++ leaves
  openGroups : d'.frames.length = d.frames.length

/-- A comparison that is taken has its leaf, and there is a place for it. -/
theorem Tracks.of_add_criterion (h : Tracks mapping d) {o : Outline Criterion}
    (ho : Holds (leafOf mapping.attributes) mapping.seed o d.frames)
    (hadd : d.add ((test.criterion operand value).withLogical logical) = .ok d') :
    d.leaf (test.criterion operand value) =
        .ok (leafOf mapping.attributes (test.criterion operand value)) ∧
      ∃ s, o.slot? logical = some s := by
  obtain ⟨f?, frames, hf, -, rfl⟩ := add_eq_ok_iff.1 hadd
  have htokens := test.tokens_criterion operand logical value
  have hcompared := test.compared?_criterion operand logical value
  obtain ⟨rfl, hc, -⟩ := leaf?_eq_compared? hf
  constructor
  · rcases leaf?_eq_ok hf with ⟨f, hsome, -, hleaf⟩ | ⟨hnone, -⟩
    · rw [hcompared, h.attributes] at hsome
      obtain rfl := Option.some.inj hsome
      exact hleaf
    · rw [hcompared] at hnone
      cases hnone
  · rw [h.attributes] at hf
    obtain ⟨o', hread, -⟩ := (hadd ▸ add_agrees ho hf hc).of_ok
    rw [htokens, Outline.read?_comparison] at hread
    obtain ⟨s, hs, -⟩ := Option.bind_eq_some_iff.1 hread
    exact ⟨s, hs⟩

/-- What a draft holds are the leaves of the comparisons among its criteria. -/
theorem Tracks.comparisonsOf_eq (h : Tracks mapping d) : comparisonsOf d.frames =
    ((readingOf d.restrictionCriteria).filterMap Token.leaf?).map (leafOf mapping.attributes) := by
  obtain ⟨o, ho, hframes⟩ := h.outline
  rw [hframes.comparisonsOf_eq (comparisons_leafOf mapping.attributes) rfl,
    Outline.leaves_of_read? ho]

/-- A draft that takes each comparison takes the list. -/
theorem Tracks.takesList (h : Tracks mapping d)
    (hadd : ∀ v ∈ value :: values, ∃ d', d.add ((test.criterion operand v).withLogical logical) =
      .ok d') :
    ∃ d₁, d.addAll (test.listed logical operand value values) = .ok d₁ ∧
      TakesList test operand (value :: values) d d₁ := by
  obtain ⟨o, hread, hframes⟩ := h.outline
  obtain ⟨d', hd'⟩ := hadd value (.head _)
  obtain ⟨-, s, hs⟩ := h.of_add_criterion hframes hd'
  have hcs : ∀ c ∈ test.listed logical operand value values, ∃ f?, d.leaf? c = .ok f? := by
    intro c hc
    rcases test.listed_cases logical operand hc with ⟨enclosure, l, hdefined, rfl⟩ | ⟨v, hv, l, rfl⟩
    · refine ⟨none, ?_⟩
      cases enclosure with
      | undefined => cases hdefined
      | _ => rfl
    · obtain ⟨d', hd'⟩ := hadd v hv
      obtain ⟨f?, -, hf, -, -⟩ := add_eq_ok_iff.1 hd'
      exact ⟨f?, hf⟩
  obtain ⟨a, as, hreading, hbare⟩ := test.readingOf_listed logical operand value values
  rw [← h.attributes] at hframes
  have hagrees := addAll_agrees hframes hcs
  rw [hreading, Term.read?_tokens _ hs] at hagrees
  obtain ⟨d₁, hall, hframes₁⟩ := hagrees.of_some
  have h₁ : Tracks mapping d₁ := foldlM_ok_invariant (fun _ _ _ => tracks_add) h hall
  refine ⟨d₁, hall, ⟨((value :: values).map (test.criterion operand)).map
    (leafOf mapping.attributes), ?_, ?_⟩, ?_⟩
  · rw [List.map_map, List.map_map]
    refine List.map_congr_left fun v hv => ?_
    obtain ⟨d', hd'⟩ := hadd v hv
    exact (h.of_add_criterion (h.attributes ▸ hframes) hd').1.symm
  · rw [h₁.comparisonsOf_eq, h.comparisonsOf_eq, restrictionCriteria_addAll hall,
      readingOf_append, List.filterMap_append, List.map_append, hreading, Term.leaves_tokens,
      Term.leaves_spread, ← hbare, List.map_map]
    rfl
  · rw [hframes₁.length_eq, hframes.length_eq]
    rfl

/-! ## Going on behind a list -/

/-- Behind several comparisons that a draft has taken, calls fare as they do behind a single one
taken in their place, and the filter is true when it is true of what the test says of them. -/
structure GoesOnAlike (test : ListTest) (before count : Nat) (d d' : Draft) (calls : List Call) :
    Prop where
  outcomes : outcomes perform d calls = outcomes perform d' calls
  compiles : (∃ search, (d.run calls).compile = .ok search) ↔
    ∃ search, (d'.run calls).compile = .ok search
  filters : ∀ search, (d.run calls).compile = .ok search → ∃ f f' : Filter,
    (d.run calls).filter? = some f ∧ (d'.run calls).filter? = some f' ∧ search.filter = f.text ∧
    -- The comparisons behind are the same.
    (∃ more, f.comparisons = comparisonsOf d.frames ++ more ∧
      f'.comparisons = comparisonsOf d'.frames ++ more) ∧
    -- Whatever values the comparisons before, those of the list and those behind have.
    ∀ (carries : String → Bool) (xs ys zs : List Bool),
      xs.length = before → ys.length = count →
      (xs ++ ys ++ zs).length = f.comparisons.length →
      f.holds carries (xs ++ ys ++ zs) = f'.holds carries (xs ++ test.holds ys :: zs)

/-- What compiles has been read as a whole. -/
theorem Tracks.exists_filter {search : DirectorySearch} (h : Tracks mapping d)
    (hcompile : d.compile = .ok search) : ∃ f, d.filter? = some f ∧ search.filter = f.text ∧
      f.comparisons = comparisonsOf d.frames := by
  obtain ⟨e?, hreads, hfilter, htext⟩ := h.of_compile hcompile
  have hleaves := Outline.leaves_of_read? hreads.read?_eq
  rw [Outline.leaves_closed] at hleaves
  refine ⟨_, hfilter, htext, ?_⟩
  rw [comparisons_topFilter (comparisons_leafOf mapping.attributes) rfl, h.comparisonsOf_eq,
    hleaves]

/-- The filter of what compiles has the value of what is read from the values in place of its
comparisons. -/
theorem Tracks.exists_holds {search : DirectorySearch} (h : Tracks mapping d)
    (hcompile : d.compile = .ok search) {f : Filter} (hf : d.filter? = some f)
    {values : List Bool} (hlength : values.length =
      ((readingOf d.restrictionCriteria).filterMap Token.leaf?).length) :
    ∃ b? : Option (Expression Bool),
      Outline.empty.read? (Token.valued values (readingOf d.restrictionCriteria)) =
        some ⟨[], b?⟩ ∧
      ∀ carries, f.holds carries values = b?.elim (mapping.seed.holds carries [])
        (·.foldsFrom id (mapping.seed.holds carries [])) := by
  obtain ⟨e?, hreads, hfilter, -⟩ := h.of_compile hcompile
  obtain rfl := Option.some.inj (hfilter.symm.trans hf)
  exact Outline.exists_holds (isComparison_leafOf mapping.attributes) rfl hreads.read?_eq hlength

/-- Of a list and of a single comparison in its place, a filter is true alike. -/
theorem Tracks.holds_eq {ts us : List (Token Criterion)} {l : Logical} {a b : Criterion}
    {as : List Criterion} {search search' : DirectorySearch} {f f' : Filter}
    (h : Tracks mapping d) (h' : Tracks mapping d')
    (hread : readingOf d.restrictionCriteria =
      ts ++ (Term.spread test.connective a as).tokens l ++ us)
    (hread' : readingOf d'.restrictionCriteria = ts ++ .comparison l b :: us)
    (hcompile : d.compile = .ok search) (hcompile' : d'.compile = .ok search')
    (hf : d.filter? = some f) (hf' : d'.filter? = some f') {xs ys zs : List Bool}
    (hxs : xs.length = (ts.filterMap Token.leaf?).length) (hys : ys.length = as.length + 1)
    (hlength : (xs ++ ys ++ zs).length =
      ((readingOf d.restrictionCriteria).filterMap Token.leaf?).length)
    (carries : String → Bool) :
    f.holds carries (xs ++ ys ++ zs) = f'.holds carries (xs ++ test.holds ys :: zs) := by
  have hlength' : (xs ++ test.holds ys :: zs).length =
      ((readingOf d'.restrictionCriteria).filterMap Token.leaf?).length := by
    rw [hread] at hlength
    rw [hread']
    exact ListTest.length_single hys hlength _
  obtain ⟨b?, hvalued, hvalue⟩ := h.exists_holds hcompile hf hlength
  obtain ⟨b'?, hvalued', hvalue'⟩ := h'.exists_holds hcompile' hf' hlength'
  rw [hread] at hvalued
  rw [hread'] at hvalued'
  rw [hvalue, hvalue', ListTest.elim_eq (ListTest.foldsFrom_inHole _) hxs hys hvalued hvalued']

/-- A run keeps what a draft tracks. -/
theorem Tracks.run (h : Tracks mapping d) (calls : List Call) : Tracks mapping (d.run calls) :=
  run_invariant (fun _ _ _ => tracks_add) h calls

/-- It adds the leaves of the comparisons that it accepts. -/
theorem Tracks.comparisonsOf_run (h : Tracks mapping d) (calls : List Call) :
    comparisonsOf (d.run calls).frames = comparisonsOf d.frames ++
      ((readingOf (accepted d calls)).filterMap Token.leaf?).map (leafOf mapping.attributes) := by
  rw [(h.run calls).comparisonsOf_eq, h.comparisonsOf_eq, restrictionCriteria_run,
    readingOf_append, List.filterMap_append, List.map_append]

/-- Where a draft takes a list and a single comparison in its place, the two go on alike. -/
theorem Tracks.goesOnAlike {v : Value} {d₁ d₂ : Draft} (h : Tracks mapping d)
    (hall : d.addAll (test.listed logical operand value values) = .ok d₁)
    (hadd : d.add ((test.criterion operand v).withLogical logical) = .ok d₂)
    (calls : List Call) :
    GoesOnAlike test (comparisonsOf d.frames).length (values.length + 1) d₁ d₂ calls := by
  have h₁ : Tracks mapping d₁ := foldlM_ok_invariant (fun _ _ _ => tracks_add) h hall
  have h₂ : Tracks mapping d₂ := tracks_add h hadd
  have hview : view d₁ = view d₂ := by
    obtain ⟨member₁, hattach₁⟩ := attach_of_addAll hall
    obtain ⟨member₂, hattach₂⟩ := attach_of_add hadd
    have hlook := attach_of_look (Eq.refl (d.frames.map Frame.look)) logical member₁ member₂
    rw [hattach₁, hattach₂] at hlook
    exact Prod.ext (h₁.attributes.trans h₂.attributes.symm) (Except.ok.inj hlook)
  obtain ⟨houtcomes, hviews⟩ := run_of_view hview calls
  have hcompiles := compile_of_view hviews
  -- Both runs accept the same criteria behind the list and the single comparison.
  have haccepted : accepted d₁ calls = accepted d₂ calls := brought_of_outcomes houtcomes
  obtain ⟨a, as, hlisted, hbare⟩ := test.readingOf_listed logical operand value values
  have has : as.length = values.length := by
    have hlength := congrArg List.length hbare
    rw [List.length_map, List.length_map] at hlength
    exact Nat.succ.inj hlength
  have hread₁ : readingOf (d₁.run calls).restrictionCriteria =
      readingOf d.restrictionCriteria ++ (Term.spread test.connective a as).tokens logical ++
        readingOf (accepted d₁ calls) := by
    rw [restrictionCriteria_run, restrictionCriteria_addAll hall, readingOf_append,
      readingOf_append, hlisted]
  have hread₂ : readingOf (d₂.run calls).restrictionCriteria =
      readingOf d.restrictionCriteria ++
        .comparison logical ((test.criterion operand v).withLogical logical) ::
          readingOf (accepted d₁ calls) := by
    obtain ⟨_, _, -, -, rfl⟩ := add_eq_ok_iff.1 hadd
    rw [restrictionCriteria_run, readingOf_append, readingOf_append, readingOf_cons,
      test.tokens_criterion, List.append_assoc, haccepted]
    rfl
  refine ⟨houtcomes, hcompiles, fun search hsearch => ?_⟩
  obtain ⟨search', hsearch'⟩ := hcompiles.1 ⟨search, hsearch⟩
  obtain ⟨f, hf, htext, hcomparisons⟩ := (h₁.run calls).exists_filter hsearch
  obtain ⟨f', hf', -, hcomparisons'⟩ := (h₂.run calls).exists_filter hsearch'
  refine ⟨f, f', hf, hf', htext, ⟨_, hcomparisons.trans (h₁.comparisonsOf_run calls), ?_⟩, ?_⟩
  · rw [hcomparisons', h₂.comparisonsOf_run, haccepted]
  · intro carries xs ys zs hxs hys hlength
    rw [h.comparisonsOf_eq, List.length_map] at hxs
    rw [hcomparisons, (h₁.run calls).comparisonsOf_eq, List.length_map] at hlength
    exact (h₁.run calls).holds_eq (h₂.run calls) hread₁ hread₂ hsearch hsearch' hf hf' hxs
      (has ▸ hys) hlength carries

end DirectorySearch.Draft

end QueryCriteria
