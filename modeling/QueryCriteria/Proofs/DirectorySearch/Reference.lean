import QueryCriteria.Proofs.DirectorySearch.Draft
/-!
# The reference filter

The filter that a draft computes step by step is the fold of the expression that its accepted
criteria read as. While groups are open, it is that of the criteria before the group that has been
open longest, and the comparisons behind it wait in the frames.
-/

namespace QueryCriteria.DirectorySearch

/-- The object classes of a mapping, which every filter of it begins with. -/
def Mapping.seed (mapping : Mapping) : Filter :=
  .objectClasses (distinctClasses mapping.objectClasses)

/-- A mapping for people. -/
def Mapping.people : Mapping where
  objectClasses := ["top", " person "]
  attributes := .ofList [("name", "cn"), ("mail", "mail")]
  searchBase := "dc=example"
  searchScope := some .subtree

namespace Draft

/-- The frames of the draft hold what the recorded criteria read as. -/
structure Tracks (mapping : Mapping) (d : Draft) : Prop where
  attributes : d.attributes = mapping.attributes
  outline : ∃ o, Outline.empty.read? (readingOf d.restrictionCriteria) = some o ∧
    Holds (leafOf mapping.attributes) mapping.seed o d.frames
  /-- Every criterion is a bracket or a comparison. -/
  tokens : ∀ c ∈ d.restrictionCriteria, c.tokens c.compared? ≠ []
  /-- Every comparison has a leaf. -/
  leaves : ∀ c ∈ d.restrictionCriteria, ∀ a, c.compared? = some a →
    (leafFor? mapping.attributes a).isSome = true

variable {mapping : Mapping} {d d' : Draft} {c : Criterion}

/-- A new draft has the mapping's attributes, and its object classes at the root. -/
theorem create_eq_ok (h : create mapping = .ok d) :
    distinctClasses mapping.objectClasses ≠ [] ∧ d.attributes = mapping.attributes ∧
      d.frames = [⟨.undefined, some mapping.seed, true⟩] ∧ d.restrictionCriteria = [] := by
  dsimp only [create] at h
  split at h
  · cases h
  · next hclasses =>
    split at h
    · cases h
    · split at h
      · cases h
      · split at h
        · cases h
        · cases h
          exact ⟨by simpa using hclasses, rfl, rfl, rfl⟩

theorem tracks_create (h : create mapping = .ok d) : Tracks mapping d := by
  obtain ⟨-, ha, hf, hc⟩ := create_eq_ok h
  refine ⟨ha, ⟨.empty, ?_, ?_⟩, ?_, ?_⟩
  · rw [hc]
    rfl
  · rw [hf]
    exact .top none
  · simp [hc]
  · simp [hc]

/-- A criterion that is taken is read behind those before. -/
theorem tracks_add (h : Tracks mapping d) (hadd : d.add c = .ok d') : Tracks mapping d' := by
  obtain ⟨o, ho, hframes⟩ := h.outline
  obtain ⟨f?, frames, hf, -, rfl⟩ := add_eq_ok_iff.1 hadd
  obtain ⟨rfl, hc, hleaf⟩ := leaf?_eq_compared? hf
  rw [h.attributes] at hf hleaf
  obtain ⟨o', ho', hframes', -⟩ := (hadd ▸ add_agrees hframes hf hc).of_ok
  refine ⟨h.attributes, ⟨o', ?_, hframes'⟩, fun c' hc' => ?_, fun c' hc' => ?_⟩
  · simp [Outline.read?_append, ho, ho']
  · rcases List.mem_append.1 hc' with hc' | hc'
    · exact h.tokens c' hc'
    · rw [List.mem_singleton.1 hc']
      exact Criterion.tokens_ne_nil hc
  · rcases List.mem_append.1 hc' with hc' | hc'
    · exact h.leaves c' hc'
    · rw [List.mem_singleton.1 hc']
      exact hleaf

theorem tracks_run (h : create mapping = .ok d) (calls : List Call) :
    Tracks mapping (d.run calls) :=
  run_invariant (fun _ _ _ => tracks_add) (tracks_create h) calls

/-- A draft that compiles has the filter of the whole expression that its criteria read as. -/
theorem Tracks.of_compile {search : DirectorySearch} (h : Tracks mapping d)
    (hcompile : d.compile = .ok search) :
    ∃ e?, Reads d.restrictionCriteria e? ∧
      d.filter? = some (topFilter (leafOf mapping.attributes) mapping.seed e?) ∧
      search.filter = (topFilter (leafOf mapping.attributes) mapping.seed e?).text := by
  obtain ⟨⟨outer, e?⟩, ho, hframes⟩ := h.outline
  obtain ⟨hfilter, htext⟩ := filter?_of_holds hframes
  unfold compile at hcompile
  split at hcompile
  · cases hcompile
  · next hclosed =>
    cases hcompile
    have hdepth : d.frames.length = outer.length + 1 := hframes.length_eq
    obtain rfl : outer = [] := List.length_eq_zero_iff.1 (by omega)
    obtain ⟨before, after, happend, hreads, hafter, -⟩ := exists_reads_append h.tokens ho
    obtain rfl : after = [] := hafter rfl
    rw [happend, List.append_nil]
    exact ⟨e?, hreads, hfilter, htext⟩

/-! ## The filter of a run -/

/-- The draft has the reference filter of the criteria that it accepted. -/
structure Computes (mapping : Mapping) (accepted : List Criterion) (d : Draft) : Prop where
  /-- The filter is the fold of the criteria before the group that has been open longest, which
  read as one expression if there are any. -/
  filter : ∃ before after e?, accepted = before ++ after ∧
    (d.frames.length = 1 → after = []) ∧
    (d.frames.length ≠ 1 → Criterion.brackets.StaysOpen after) ∧
    Reads before e? ∧ (∀ e?', Reads before e?' → e?' = e?) ∧
    d.filter? = some (topFilter (leafOf mapping.attributes) mapping.seed e?) ∧
    d.filterText = (topFilter (leafOf mapping.attributes) mapping.seed e?).text
  /-- Each comparison stands in the frames once, in the order of acceptance. -/
  comparisons : comparisonsOf d.frames =
    (accepted.filterMap Criterion.compared?).map (leafOf mapping.attributes)
  /-- Each comparison has the leaf it stands for. -/
  leaves : ∀ c ∈ accepted.filterMap Criterion.compared?,
    leafFor? mapping.attributes c = some (leafOf mapping.attributes c)

/-- After every run of calls on a new draft, whichever of them fail, the draft has the reference
filter. -/
theorem computes_run (h : create mapping = .ok d) (calls : List Call) :
    Computes mapping (accepted d calls) (d.run calls) := by
  have hrecord : (d.run calls).restrictionCriteria = accepted d calls := by
    rw [restrictionCriteria_run, (create_eq_ok h).2.2.2, List.nil_append]
  obtain ⟨-, ⟨o, ho, hframes⟩, htokens, hleaves⟩ := tracks_run h calls
  rw [hrecord] at ho htokens hleaves
  have hlength := hframes.length_eq
  obtain ⟨before, after, happend, hreads, hclosed, hopen⟩ := exists_reads_append htokens ho
  obtain ⟨hfilter, htext⟩ := filter?_of_holds hframes
  refine ⟨⟨before, after, o.topLevel?, happend, fun hl => hclosed (by omega),
    fun hl => hopen (by omega), hreads, fun _ h' => h'.unique hreads, hfilter, htext⟩, ?_,
    fun c hc => ?_⟩
  · -- The frames hold what the outline holds, and the outline holds all tokens of the criteria.
    obtain ⟨l, hl⟩ := Outline.tokens_read? ho .undefined
    have hread : o.tokens l = readingOf (accepted d calls) := hl
    rw [hframes.comparisonsOf_eq (comparisons_leafOf mapping.attributes) rfl,
      ← o.leaves_tokens l, hread, leaves_readingOf]
  · obtain ⟨c', hc', hcompared⟩ := List.mem_filterMap.1 hc
    obtain ⟨f, hf⟩ := Option.isSome_iff_exists.1 (hleaves c' hc' c hcompared)
    rw [leafOf, hf]
    rfl

/-- A run with a refused bracket and a group that stays open: the comparison in the group is no part
of the filter yet. -/
theorem computes_run_openGroup : ∃ d, create .people = .ok d ∧
    let name := Criterion.comparing "name" .equal (.string "Ann (A)")
    let mail := (Criterion.comparing "mail" .equal (.string "ann@example")).withLogical .or
    let calls : List Call :=
      [.add name, .add (.marker .closing), .add (mail.withEnclosure .opening)]
    accepted d calls = [name, mail.withEnclosure .opening] ∧
      (d.run calls).filterText =
        "(&(&(objectclass=person)(objectclass=top))(cn=Ann \\28A\\29))" ∧
      Computes .people (accepted d calls) (d.run calls) := by
  have h : create .people = .ok _ := rfl
  exact ⟨_, h, rfl, by decide, computes_run h _⟩

end Draft

end QueryCriteria.DirectorySearch
