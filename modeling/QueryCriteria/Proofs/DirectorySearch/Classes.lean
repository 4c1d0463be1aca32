import Mathlib.Data.List.Sort
import Mathlib.Data.String.Basic
import QueryCriteria.Proofs.DirectorySearch.Selection
/-!
# Object classes as a set

The object classes that count stand in strictly increasing order, so the list of them is settled by
which there are (`distinctClasses_congr`). Mappings that name the same classes make the same draft,
whose filter begins with each of them once (`classes_as_set`).
-/

namespace QueryCriteria

namespace DirectorySearch

/-! ## The canonical list -/

theorem pairwise_insertSorted (name : String) {names : List String} (h : names.Pairwise (· < ·)) :
    (insertSorted name names).Pairwise (· < ·) := by
  induction names with
  | nil => exact List.pairwise_singleton ..
  | cons n names ih =>
    obtain ⟨hn, hnames⟩ := List.pairwise_cons.1 h
    unfold insertSorted
    split
    · next hlt =>
      refine List.pairwise_cons.2 ⟨fun other hother => ?_, h⟩
      rcases List.mem_cons.1 hother with rfl | hother
      · exact hlt
      · exact hlt.trans (hn other hother)
    · next hge =>
      split
      · exact h
      · next hne =>
        refine List.pairwise_cons.2 ⟨fun other hother => ?_, ih hnames⟩
        rcases mem_insertSorted.1 hother with rfl | hother
        · exact lt_of_le_of_ne (not_lt.1 hge) (Ne.symm hne)
        · exact hn other hother

/-- The object classes that count are strictly increasing. -/
theorem pairwise_distinctClasses (classes : List String) :
    (distinctClasses classes).Pairwise (· < ·) :=
  List.foldrRecOn _ insertSorted .nil fun _ h name _ => pairwise_insertSorted name h

/-- A mapping names an object class that stands in its list, possibly within white space. -/
def Mapping.Names (mapping : Mapping) (name : String) : Prop :=
  name ≠ "" ∧ ∃ raw ∈ mapping.objectClasses, Text.trim raw = name

/-- Two mappings name the same object classes, and have everything else in common. -/
structure Mapping.SameClasses (mapping mapping' : Mapping) : Prop where
  names : ∀ name, mapping.Names name ↔ mapping'.Names name
  attributes : mapping.attributes = mapping'.attributes
  searchBase : mapping.searchBase = mapping'.searchBase
  searchScope : mapping.searchScope = mapping'.searchScope

variable {mapping mapping' : Mapping}

theorem Mapping.names_iff {name : String} :
    mapping.Names name ↔ name ∈ distinctClasses mapping.objectClasses :=
  mem_distinctClasses.symm

/-- The list of the classes that count is settled by which there are. -/
theorem distinctClasses_congr (h : mapping.SameClasses mapping') :
    distinctClasses mapping.objectClasses = distinctClasses mapping'.objectClasses := by
  refine List.Pairwise.eq_of_mem_iff (pairwise_distinctClasses _) (pairwise_distinctClasses _) ?_
  intro name
  rw [← Mapping.names_iff, ← Mapping.names_iff]
  exact h.names name

theorem Draft.create_congr (h : mapping.SameClasses mapping') :
    create mapping = create mapping' := by
  unfold create
  rw [distinctClasses_congr h, h.attributes, h.searchBase, h.searchScope]

/-! ## The object classes in a filter -/

/-- The lists of object classes that a filter asks for, in order. -/
def Filter.classLists : Filter → List (List String)
  | .objectClasses classes => [classes]
  | .compare .. => []
  | .group _ left right => left.classLists ++ right.classLists

/-- How a filter writes object classes: each in parentheses, and several in a group. -/
inductive WritesClasses (classes : List String) : List Char → Prop
  | one (h : classes.length = 1) : WritesClasses classes (classes.flatMap Filter.classChars)
  | several (h : 2 ≤ classes.length) :
    WritesClasses classes (['(', '&'] ++ classes.flatMap Filter.classChars ++ [')'])

theorem writesClasses_chars {classes : List String} (h : classes ≠ []) :
    WritesClasses classes (Filter.objectClasses classes).chars := by
  have hpos := List.length_pos_iff.2 h
  unfold Filter.chars
  split
  · next hseveral => exact .several hseveral
  · exact .one (by omega)

theorem Filter.IsComparison.classLists_eq {f : Filter} (h : f.IsComparison) : f.classLists = [] := by
  cases f with
  | compare => rfl
  | objectClasses | group => cases h

theorem classLists_leafOf (attributes : OrderedMap String) (c : Criterion) :
    (leafOf attributes c).classLists = [] :=
  (isComparison_leafOf attributes c).classLists_eq

end DirectorySearch

open DirectorySearch (Filter Connective)

variable {α : Type} {leaf : α → Filter}

mutual
theorem Term.classLists_filter (hleaf : ∀ a, (leaf a).classLists = []) :
    ∀ t : Term α, (t.filter leaf).classLists = []
  | .leaf a => hleaf a
  | .group e => e.classLists_filter hleaf

theorem Expression.classLists_filter (hleaf : ∀ a, (leaf a).classLists = []) :
    ∀ e : Expression α, (e.filter leaf).classLists = []
  | .single t => t.classLists_filter hleaf
  | .connected e _ t => by
    simp [Expression.filter, Filter.classLists, e.classLists_filter hleaf,
      t.classLists_filter hleaf]
end

theorem Expression.classLists_narrowed (hleaf : ∀ a, (leaf a).classLists = []) (seed : Filter) :
    ∀ e : Expression α, (e.narrowed leaf seed).classLists = seed.classLists
  | .single t => by simp [narrowed, Filter.classLists, t.classLists_filter hleaf]
  | .connected e _ t => by
    simp [narrowed, Filter.classLists, e.classLists_narrowed hleaf seed, t.classLists_filter hleaf]

/-- Whatever stands behind it, a seed has nothing in front of it but the openings of groups. -/
theorem Expression.chars_narrowed (seed : Filter) : ∀ e : Expression α,
    ∃ (connectives : List Connective) (rest : List Char), (e.narrowed leaf seed).chars =
      connectives.flatMap Connective.opener ++ seed.chars ++ rest
  | .single t => ⟨[.and], (t.filter leaf).chars ++ [')'], by simp [narrowed, Filter.chars]⟩
  | .connected e c t => by
    obtain ⟨connectives, rest, h⟩ := e.chars_narrowed seed
    refine ⟨c :: connectives, rest ++ (t.filter leaf).chars ++ [')'], ?_⟩
    simp [narrowed, Filter.chars, h]

namespace DirectorySearch.Draft

variable {mapping mapping' : Mapping} {d : Draft}

/-- A draft lists the classes of its mapping once, in front of everything but openings of groups. -/
structure BeginsWith (classes : List String) (d : Draft) : Prop where
  once : ∃ f, d.filter? = some f ∧ d.filterText = f.text ∧ f.classLists = [classes]
  first : ∃ (connectives : List Connective) (part rest : List Char), WritesClasses classes part ∧
    d.filterText.toList = connectives.flatMap Connective.opener ++ part ++ rest

theorem beginsWith_run (h : create mapping = .ok d) (calls : List Call) :
    BeginsWith (distinctClasses mapping.objectClasses) (d.run calls) := by
  have hwrites := writesClasses_chars (create_eq_ok h).1
  obtain ⟨-, ⟨o, -, hframes⟩, -, -⟩ := tracks_run h calls
  obtain ⟨hfilter, htext⟩ := filter?_of_holds hframes
  refine ⟨⟨_, hfilter, htext, ?_⟩, ?_⟩
  · cases o.topLevel? with
    | none => rfl
    | some e => exact e.classLists_narrowed (classLists_leafOf _) mapping.seed
  · rw [htext, Filter.text, String.toList_ofList]
    cases o.topLevel? with
    | none => exact ⟨[], _, [], hwrites, by simp [topFilter, Mapping.seed]⟩
    | some e =>
      obtain ⟨connectives, rest, hchars⟩ := e.chars_narrowed mapping.seed
      exact ⟨connectives, _, rest, hwrites, hchars⟩

/-- Mappings that name the same object classes, in whatever order, white space and repetition, make
drafts under the same conditions and fail for the same reasons. All calls have the same outcomes on
these drafts, which have the same filter and compile to the same search after every run. The filter
lists each class once, in increasing order, and encloses them in a group when there are several. -/
theorem classes_as_set (h : mapping.SameClasses mapping') :
    ((∃ d, create mapping = .ok d) ↔ ∃ d', create mapping' = .ok d') ∧
    (∀ fault, create mapping = .error fault ↔ create mapping' = .error fault) ∧
    ∀ d d', create mapping = .ok d → create mapping' = .ok d' →
      (∀ calls, outcomes perform d calls = outcomes perform d' calls ∧
        (d.run calls).filterText = (d'.run calls).filterText ∧
        (d.run calls).compile = (d'.run calls).compile) ∧
      ∃ classes : List String, classes.Pairwise (· < ·) ∧
        (∀ name, name ∈ classes ↔ mapping.Names name) ∧
        ∀ calls, BeginsWith classes (d.run calls) := by
  have hcreate := create_congr h
  refine ⟨by rw [hcreate], by simp [hcreate], fun d d' hd hd' => ⟨?_, ?_⟩⟩
  · obtain rfl : d = d' := Except.ok.inj (hd.symm.trans (hcreate.trans hd'))
    exact fun calls => ⟨rfl, rfl, rfl⟩
  · exact ⟨_, pairwise_distinctClasses _, fun _ => Mapping.names_iff.symm, beginsWith_run hd⟩

/-- The same two classes in another order, one of them twice and beside a blank. -/
theorem classes_as_set_respelled :
    let respelled := { Mapping.people with objectClasses := ["person", "\ttop ", "  ", "person "] }
    Mapping.people.SameClasses respelled ∧
    ∃ d d', create .people = .ok d ∧ create respelled = .ok d' ∧
      let calls : List Call := [.add (.comparing "name" .equal (.string "Ann"))]
      (d.run calls).filterText = "(&(&(objectclass=person)(objectclass=top))(cn=Ann))" ∧
      outcomes perform d calls = outcomes perform d' calls ∧
      (d.run calls).filterText = (d'.run calls).filterText ∧
      (d.run calls).compile = (d'.run calls).compile ∧
      ∃ classes : List String, classes.Pairwise (· < ·) ∧
        (∀ name, name ∈ classes ↔ name ∈ ["person", "top"]) ∧ BeginsWith classes (d.run calls) := by
  intro respelled
  have hnames : distinctClasses Mapping.people.objectClasses = ["person", "top"] := by decide
  have hnames' : distinctClasses respelled.objectClasses = ["person", "top"] := by decide
  have hsame : Mapping.people.SameClasses respelled :=
    ⟨fun name => by rw [Mapping.names_iff, Mapping.names_iff, hnames, hnames'], rfl, rfl, rfl⟩
  obtain ⟨d, hd, htext⟩ : ∃ d, create .people = .ok d ∧
      (d.run [.add (.comparing "name" .equal (.string "Ann"))]).filterText =
        "(&(&(objectclass=person)(objectclass=top))(cn=Ann))" := ⟨_, rfl, by decide⟩
  obtain ⟨hok, -, hruns⟩ := classes_as_set hsame
  obtain ⟨d', hd'⟩ := hok.1 ⟨d, hd⟩
  obtain ⟨hequal, classes, hsorted, hmem, hbegins⟩ := hruns d d' hd hd'
  obtain ⟨houtcomes, hfilter, hcompile⟩ := hequal [.add (.comparing "name" .equal (.string "Ann"))]
  refine ⟨hsame, d, d', hd, hd', htext, houtcomes, hfilter, hcompile, classes, hsorted, ?_,
    hbegins _⟩
  intro name
  rw [hmem, Mapping.names_iff, hnames]

end DirectorySearch.Draft

end QueryCriteria
