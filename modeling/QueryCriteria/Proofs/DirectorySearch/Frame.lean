import QueryCriteria.DirectorySearch.Draft
import QueryCriteria.Proofs.Outcome
import QueryCriteria.Proofs.Reading
/-!
# Frames as readers

The filter of an expression is the fold of its terms from the left; the one at the top begins with
a seed, which the first term always narrows. A stack of frames holds the filters of an outline, and
goes on with a token exactly when the outline does (`attach_agrees`, `close_agrees`,
`place_agrees`).
-/

open QueryCriteria.DirectorySearch (Filter Frame)

namespace QueryCriteria

variable {α : Type} (leaf : α → Filter)

/-! ## Filters of expressions -/

mutual
/-- The filter of a term, given the filters of its comparisons. -/
def Term.filter : Term α → Filter
  | .leaf a => leaf a
  | .group e => e.filter

/-- The filter of an expression, given the filters of its comparisons. -/
def Expression.filter : Expression α → Filter
  | .single t => t.filter
  | .connected e c t => .group c e.filter t.filter
end

/-- The filter of an expression behind a seed. -/
def Expression.narrowed (seed : Filter) : Expression α → Filter
  | .single t => .group .and seed (t.filter leaf)
  | .connected e c t => .group c (e.narrowed seed) (t.filter leaf)

/-- The filter at the top: the seed, and behind it what there is of an expression. -/
def topFilter (seed : Filter) (e? : Option (Expression α)) : Filter :=
  e?.elim seed (·.narrowed leaf seed)

section
variable {β : Type} (leaf : β → Filter) (f : α → β)

mutual
theorem Term.filter_map : ∀ t : Term α, (t.map f).filter leaf = t.filter (leaf ∘ f)
  | .leaf _ => rfl
  | .group e => e.filter_map

theorem Expression.filter_map : ∀ e : Expression α, (e.map f).filter leaf = e.filter (leaf ∘ f)
  | .single t => t.filter_map
  | .connected e _ t => by
    rw [Expression.map, Expression.filter, Expression.filter, e.filter_map, t.filter_map]
end

theorem Expression.narrowed_map (seed : Filter) :
    ∀ e : Expression α, (e.map f).narrowed leaf seed = e.narrowed (leaf ∘ f) seed
  | .single t => by rw [map, narrowed, narrowed, t.filter_map leaf f]
  | .connected e _ t => by
    rw [map, narrowed, narrowed, e.narrowed_map seed, t.filter_map leaf f]

theorem topFilter_map (seed : Filter) (e? : Option (Expression α)) :
    topFilter leaf seed (e?.map (·.map f)) = topFilter (leaf ∘ f) seed e? := by
  cases e? with
  | none => rfl
  | some e => exact e.narrowed_map leaf f seed

end

/-! ## Comparisons -/

/-- The comparisons of a filter, in order. -/
def DirectorySearch.Filter.comparisons : Filter → List Filter
  | .objectClasses _ => []
  | .compare attributeName assertion value => [.compare attributeName assertion value]
  | .group _ left right => left.comparisons ++ right.comparisons

variable {leaf}

mutual
theorem Term.comparisons_filter (hleaf : ∀ a, (leaf a).comparisons = [leaf a]) :
    ∀ t : Term α, (t.filter leaf).comparisons = t.leaves.map leaf
  | .leaf a => hleaf a
  | .group e => e.comparisons_filter hleaf

/-- The filter of an expression has its comparisons. -/
theorem Expression.comparisons_filter (hleaf : ∀ a, (leaf a).comparisons = [leaf a]) :
    ∀ e : Expression α, (e.filter leaf).comparisons = e.leaves.map leaf
  | .single t => t.comparisons_filter hleaf
  | .connected e _ t => by
    simp [Expression.filter, Filter.comparisons, Expression.leaves, e.comparisons_filter hleaf,
      t.comparisons_filter hleaf]
end

theorem Expression.comparisons_narrowed (hleaf : ∀ a, (leaf a).comparisons = [leaf a])
    {seed : Filter} (hseed : seed.comparisons = []) :
    ∀ e : Expression α, (e.narrowed leaf seed).comparisons = e.leaves.map leaf
  | .single t => by
    simp [narrowed, Filter.comparisons, hseed, Expression.leaves, t.comparisons_filter hleaf]
  | .connected e _ t => by
    simp [narrowed, Filter.comparisons, Expression.leaves, e.comparisons_narrowed hleaf hseed,
      t.comparisons_filter hleaf]

theorem comparisons_topFilter (hleaf : ∀ a, (leaf a).comparisons = [leaf a])
    {seed : Filter} (hseed : seed.comparisons = []) (e? : Option (Expression α)) :
    (topFilter leaf seed e?).comparisons = (e?.elim [] (·.leaves)).map leaf := by
  cases e? with
  | none => exact hseed
  | some e => exact e.comparisons_narrowed hleaf hseed

/-! ## Frames -/

namespace DirectorySearch

variable (leaf) in
/-- The frames hold the filters of what has been read. Each group keeps the logical operator that
found its place in the level around it. -/
inductive Holds (seed : Filter) : Outline α → List Frame → Prop
  | top (current : Option (Expression α)) :
      Holds seed ⟨[], current⟩ [⟨.undefined, some (topFilter leaf seed current), current.isNone⟩]
  | group {o : Outline α} {frames : List Frame} {logical : Logical} {s : Slot α}
      (h : Holds seed o frames) (hs : o.slot? logical = some s)
      (current : Option (Expression α)) :
      Holds seed ⟨s :: o.outer, current⟩ (⟨logical, current.map (·.filter leaf), false⟩ :: frames)

variable {seed : Filter} {o : Outline α} {frames : List Frame}

theorem Holds.length_eq (h : Holds leaf seed o frames) : frames.length = o.depth + 1 := by
  induction h with
  | top current => rfl
  | group h hs current ih => simp [ih, Outline.depth]

/-- The root frame holds the filter at the top. -/
theorem Holds.getLast?_filter (h : Holds leaf seed o frames) :
    frames.getLast?.bind (·.filter) = some (topFilter leaf seed o.topLevel?) := by
  induction h with
  | top current => rfl
  | @group o frames logical s h hs current ih =>
    cases frames with
    | nil => exact absurd h.length_eq (by simp)
    | cons frame frames => simpa [List.getLast?_cons, Outline.topLevel?_opened hs] using ih

/-! ## Steps -/

/-- Another term becomes a part of the innermost frame where the outline has a place for it. -/
theorem attach_agrees (h : Holds leaf seed o frames) (l : Logical) (t : Term α) :
    Agrees (Holds leaf seed) ((o.slot? l).map fun s => o.put s t)
      (Draft.attach frames l (t.filter leaf)) := by
  -- A frame has a filter exactly when its level has a term, apart from the root, which has the seed
  -- from the beginning and is marked while it has no more.
  cases h with
  | top current =>
    cases current <;> cases l <;>
      first
        | exact .ok (.top (some _))
        | exact .error _
  | group h hs current =>
    cases current <;> cases l <;>
      first
        | exact .ok (.group h hs (some _))
        | exact .error _

/-- A group can be opened where the outline has a place for it. -/
theorem checkAttachable_agrees (h : Holds leaf seed o frames) (l : Logical) :
    Agrees (fun s _ => o.slot? l = some s) (o.slot? l) (Draft.checkAttachable frames l) := by
  cases h with
  | top current =>
    cases current <;> cases l <;>
      first
        | exact .ok rfl
        | exact .error _
  | group h hs current =>
    cases current <;> cases l <;>
      first
        | exact .ok rfl
        | exact .error _

/-- A group that holds something becomes a term of the one around it. -/
theorem close_agrees (h : Holds leaf seed o frames) :
    Agrees (Holds leaf seed) (o.next? .closing) (Draft.close frames) := by
  cases h with
  | top current => exact .error _
  | @group o frames l s h hs current =>
    cases frames with
    | nil => exact absurd h.length_eq (by simp)
    | cons frame frames =>
      cases current with
      | none => exact .error _
      | some e =>
        have ha := attach_agrees h l (.group e)
        rw [hs] at ha
        exact ha

/-- A criterion finds its place among the frames when the outline goes on with its tokens. -/
theorem place_agrees (h : Holds leaf seed o frames) (c : Criterion) {a? : Option α}
    (hc : Operator.isDefined c.enclosure = true ∨ a?.isSome = true) :
    Agrees (Holds leaf seed) (o.read? (c.tokens a?)) (Draft.place frames c (a?.map leaf)) := by
  unfold Draft.place Criterion.tokens
  cases he : c.enclosure with
  | undefined =>
    cases a? with
    | none =>
      rw [he] at hc
      rcases hc with hc | hc <;> cases hc
    | some a => simpa [Outline.next?, Term.filter] using attach_agrees h c.logical (.leaf a)
  | opening =>
    have hopen (current : Option (Expression α)) :
        Agrees (Holds leaf seed) ((o.slot? c.logical).bind fun s => some ⟨s :: o.outer, current⟩)
          (do Draft.checkAttachable frames c.logical
              return ⟨c.logical, current.map (·.filter leaf), false⟩ :: frames) :=
      (checkAttachable_agrees h c.logical).bind fun s _ hs => .ok (.group h hs current)
    cases a? with
    | none =>
      rw [Outline.read?_opening]
      exact hopen none
    | some a =>
      rw [Outline.read?_opening]
      exact hopen (some (.single (.leaf a)))
  | closing =>
    cases a? with
    | none => simpa using close_agrees h
    | some a =>
      have hclose := (attach_agrees h c.logical (.leaf a)).bind fun _ _ h' => close_agrees h'
      simpa [Outline.next?, Term.filter] using hclose

/-! ## Comparisons in frames -/

/-- The comparisons that a stack of frames holds, from the root on. -/
def comparisonsOf (frames : List Frame) : List Filter :=
  frames.reverse.flatMap fun frame => frame.filter.elim [] (·.comparisons)

/-- The frames hold each comparison that has been read once, in the order of reading. -/
theorem Holds.comparisonsOf_eq (hleaf : ∀ a, (leaf a).comparisons = [leaf a])
    (hseed : seed.comparisons = []) (h : Holds leaf seed o frames) :
    comparisonsOf frames = o.leaves.map leaf := by
  induction h with
  | top current => simp [comparisonsOf, comparisons_topFilter hleaf hseed, Outline.leaves]
  | @group o frames l s h hs current ih =>
    rw [Outline.leaves_opened hs, List.map_append, ← ih]
    cases current with
    | none => simp [comparisonsOf]
    | some e => simp [comparisonsOf, e.comparisons_filter hleaf]

end DirectorySearch

end QueryCriteria
