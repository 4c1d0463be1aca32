import QueryCriteria.Proofs.DirectorySearch.Reference
/-!
# What filters select

Filters as conditions on the entries of a directory. Every filter grows from the object classes of
its mapping, so an entry that it selects carries them all, unless a term that the criteria connect
with "or" at the top level let it in: such a term stands beside the object classes, not behind them
(`carries_or_alternative_run`).
-/

namespace QueryCriteria

namespace DirectorySearch

/-! ## Entries -/

/-- What a filter can ask of a directory entry: its object classes, and which comparisons of an
attribute with a value hold of it. -/
structure Entry where
  carries : String → Bool
  equals : String → String → Bool
  atLeast : String → String → Bool

/-- Whether a filter selects an entry. -/
def Filter.selects (entry : Entry) : Filter → Bool
  | .objectClasses classes => classes.all entry.carries
  | .compare attributeName .equal value => entry.equals attributeName value
  | .compare attributeName .notEqual value => !entry.equals attributeName value
  | .compare attributeName .greaterOrEqual value => entry.atLeast attributeName value
  | .group .and left right => left.selects entry && right.selects entry
  | .group .or left right => left.selects entry || right.selects entry

/-! ## Object classes -/

theorem mem_insertSorted {name other : String} {names : List String} :
    other ∈ insertSorted name names ↔ other = name ∨ other ∈ names := by
  induction names with
  | nil => simp [insertSorted]
  | cons n names ih =>
    unfold insertSorted
    split
    · simp
    · split
      · next heq => subst heq; simp
      · simp only [List.mem_cons, ih]
        exact or_left_comm

/-- The object classes that count are the trimmed names that are not blank. -/
theorem mem_distinctClasses {name : String} {classes : List String} :
    name ∈ distinctClasses classes ↔ name ≠ "" ∧ ∃ raw ∈ classes, Text.trim raw = name := by
  have hfold (names : List String) : name ∈ names.foldr insertSorted [] ↔ name ∈ names := by
    induction names with
    | nil => simp
    | cons n names ih => simp [mem_insertSorted, ih]
  simp [distinctClasses, hfold, and_comm]

/-- The object classes at the root select the entries that carry them all. -/
theorem carries_of_selects_seed {mapping : Mapping} {entry : Entry}
    (h : mapping.seed.selects entry = true) {name : String} (hname : name ∈ mapping.objectClasses)
    (hblank : Text.trim name ≠ "") : entry.carries (Text.trim name) = true := by
  have hall : ∀ c ∈ distinctClasses mapping.objectClasses, entry.carries c = true := by
    simpa [Mapping.seed, Filter.selects] using h
  exact hall _ (mem_distinctClasses.2 ⟨hblank, name, hname, rfl⟩)

end DirectorySearch

/-! ## Terms beside the object classes -/

open DirectorySearch (Filter Entry)

variable {α : Type} {leaf : α → Filter} {seed : Filter} {entry : Entry}

/-- The terms that an expression connects with "or" in its outermost level. -/
def Expression.alternatives : Expression α → List (Term α)
  | .single _ => []
  | .connected e .and _ => e.alternatives
  | .connected e .or t => e.alternatives ++ [t]

/-- What is selected behind a seed is selected by the seed or by an alternative to it. -/
theorem Expression.selects_narrowed : ∀ e : Expression α,
    (e.narrowed leaf seed).selects entry = true →
      seed.selects entry = true ∨ ∃ t ∈ e.alternatives, (t.filter leaf).selects entry = true
  | .single t, h => by
    have h : seed.selects entry = true ∧ (t.filter leaf).selects entry = true := by
      simpa [narrowed, Filter.selects] using h
    exact .inl h.1
  | .connected e .and t, h => by
    have h : (e.narrowed leaf seed).selects entry = true ∧ (t.filter leaf).selects entry = true := by
      simpa [narrowed, Filter.selects] using h
    exact e.selects_narrowed h.1
  | .connected e .or t, h => by
    have h : (e.narrowed leaf seed).selects entry = true ∨ (t.filter leaf).selects entry = true := by
      simpa [narrowed, Filter.selects] using h
    simp only [alternatives, List.mem_append, List.mem_singleton]
    rcases h with h | h
    · rcases e.selects_narrowed h with h | ⟨t', ht', h⟩
      · exact .inl h
      · exact .inr ⟨t', .inl ht', h⟩
    · exact .inr ⟨t, .inr rfl, h⟩

theorem selects_topFilter {e? : Option (Expression α)}
    (h : (topFilter leaf seed e?).selects entry = true) : seed.selects entry = true ∨
      ∃ e, e? = some e ∧ ∃ t ∈ e.alternatives, (t.filter leaf).selects entry = true := by
  cases e? with
  | none => exact .inl h
  | some e =>
    rcases e.selects_narrowed h with h | h
    · exact .inl h
    · exact .inr ⟨e, rfl, h⟩

/-! ## Drafts -/

namespace DirectorySearch.Draft

variable {mapping : Mapping} {d : Draft}

/-- A draft compiles to the filter at its root once no group is open. -/
theorem compile_eq_ok {f : Filter} (hf : d.filter? = some f) (hclosed : d.frames.length = 1) :
    d.compile = .ok ⟨f.text, d.searchBase, d.searchScope⟩ := by
  simp [compile, hclosed, filterText, hf]

/-- Where a run leaves no group open, the draft compiles, and an entry that the filter selects carries
every object class of the mapping or is selected by a term that the accepted criteria connect with
"or" at the top level. -/
theorem carries_or_alternative_run (h : create mapping = .ok d) (calls : List Call)
    (hclosed : (d.run calls).frames.length = 1) :
    ∃ search f e?, (d.run calls).compile = .ok search ∧ search.filter = f.text ∧
      (d.run calls).filter? = some f ∧ Reads (accepted d calls) e? ∧
      ∀ entry : Entry, f.selects entry = true →
        (∀ name ∈ mapping.objectClasses, Text.trim name ≠ "" →
          entry.carries (Text.trim name) = true) ∨
        ∃ e, e? = some e ∧ ∃ t ∈ e.alternatives,
          (t.filter (leafOf mapping.attributes)).selects entry = true := by
  obtain ⟨-, ⟨o, ho, hframes⟩, htokens, -⟩ := tracks_run h calls
  have hrecord : (d.run calls).restrictionCriteria = accepted d calls := by
    rw [restrictionCriteria_run, (create_eq_ok h).2.2.2, List.nil_append]
  rw [hrecord] at ho htokens
  obtain ⟨before, after, happend, hreads, hafter, -⟩ := exists_reads_append htokens ho
  -- Without an open group, nothing stands behind what has been read of the top level.
  have hdepth : o.depth = 0 := by
    have := hframes.length_eq
    omega
  rw [hafter hdepth, List.append_nil] at happend
  obtain ⟨hfilter, -⟩ := filter?_of_holds hframes
  refine ⟨_, _, o.topLevel?, compile_eq_ok hfilter hclosed, rfl, hfilter, happend ▸ hreads, ?_⟩
  intro entry hselects
  rcases selects_topFilter hselects with hseed | halternative
  · left
    intro name hname hblank
    exact carries_of_selects_seed hseed hname hblank
  · right
    exact halternative

/-- The "or" of a group does not stand beside the object classes, so only entries that carry them are
selected. -/
theorem carries_or_alternative_run_group : ∃ d, create .people = .ok d ∧
    let name := Criterion.comparing "name" .notEqual (.string "Ann")
    let mail := Criterion.comparing "mail" .greaterThanOrEqual (.string "m")
    let calls : List Call := [.add (name.withEnclosure .opening),
      .add ((mail.withLogical .or).withEnclosure .closing)]
    (d.run calls).frames.length = 1 ∧ (d.run calls).filterText =
      "(&(&(objectclass=person)(objectclass=top))(|(!cn=Ann)(mail>=m)))" ∧
    ∃ search f e?, (d.run calls).compile = .ok search ∧ search.filter = f.text ∧
      (d.run calls).filter? = some f ∧ Reads (accepted d calls) e? ∧
      ∀ entry : Entry, f.selects entry = true →
        (∀ name ∈ Mapping.people.objectClasses, Text.trim name ≠ "" →
          entry.carries (Text.trim name) = true) ∨
        ∃ e, e? = some e ∧ ∃ t ∈ e.alternatives,
          (t.filter (leafOf Mapping.people.attributes)).selects entry = true := by
  have h : create .people = .ok _ := rfl
  exact ⟨_, h, rfl, by decide, carries_or_alternative_run h _ rfl⟩

/-- An "or" at the top level lets in an entry that carries none of the object classes. -/
theorem selects_stranger : ∃ d, create .people = .ok d ∧
    let name := Criterion.comparing "name" .equal (.string "Ann")
    let mail := (Criterion.comparing "mail" .equal (.string "bob@example")).withLogical .or
    let calls : List Call := [.add name, .add mail]
    let stranger : Entry :=
      { carries := fun _ => false
        equals := fun attributeName value => attributeName == "mail" && value == "bob@example"
        atLeast := fun _ _ => false }
    (d.run calls).frames.length = 1 ∧ accepted d calls = [name, mail] ∧
    ∃ search f, (d.run calls).compile = .ok search ∧ search.filter = f.text ∧
      (d.run calls).filter? = some f ∧
      f.text = "(|(&(&(objectclass=person)(objectclass=top))(cn=Ann))(mail=bob@example))" ∧
      f.selects stranger = true ∧
      ∀ name ∈ Mapping.people.objectClasses, stranger.carries (Text.trim name) = false := by
  have h : create .people = .ok _ := rfl
  exact ⟨_, h, rfl, rfl, _, _, rfl, rfl, rfl, by decide, by decide, fun _ _ => rfl⟩

end DirectorySearch.Draft

end QueryCriteria
