import QueryCriteria.Proofs.FetchPlan
/-!
# Chains of relations

A planned relation ends a chain of relations that leads to it from the root, and its path is the
names of that chain. The walk is told here by chains instead of paths. Each chain is planned behind
the one that it continues (`Traces.continues`), and where the relations of every entity have
distinct names, no two chains have the same names (`Traces.nodup_names`).
-/

namespace QueryCriteria.FetchPlan

/-- Relations that are followed one after the other from the root: those before the last, and the
last. -/
structure Chain where
  before : List Relation
  last : Relation
deriving Repr, DecidableEq

/-- The text of relations in front of another one: their names with a dot behind each. -/
def leadOf (rs : List Relation) : String := String.join (rs.map fun r => r.name ++ ".")

theorem leadOf_concat (rs : List Relation) (r : Relation) :
    leadOf (rs ++ [r]) = leadOf rs ++ (r.name ++ ".") := by
  simp [leadOf]

namespace Chain

/-- All relations of a chain. -/
def steps (c : Chain) : List Relation := c.before ++ [c.last]

/-- The names of the relations. -/
def names (c : Chain) : List String := c.steps.map (·.name)

/-- The chain with one more relation. -/
def extend (c : Chain) (r : Relation) : Chain := ⟨c.steps, r⟩

/-- The last relation as the walk has it pending. -/
def pending (c : Chain) : Pending :=
  ⟨leadOf c.before, min (c.before.length + 1) 255, c.last⟩

/-- The dotted path of a chain. -/
def path (c : Chain) : String := c.pending.path

/-- The simple name of the entity that a chain leads to. -/
def target (c : Chain) : String := c.pending.target

/-- The chains behind a chain. -/
def onward (m : Nat) (c : Chain) (e : Entity) : List Chain :=
  if m < min (c.steps.length + 1) 255 then [] else e.relations.map c.extend

theorem map_pending_onward (m : Nat) (c : Chain) (e : Entity) :
    (c.onward m e).map pending = c.pending.onward m e := by
  have hdepth : min (min (c.before.length + 1) 255 + 1) 255 = min (c.steps.length + 1) 255 := by
    rw [steps, List.length_append, List.length_singleton]
    omega
  have hlead : c.pending.path ++ "." = leadOf c.steps := by
    rw [steps, leadOf_concat, ← String.append_assoc]
    rfl
  unfold onward Pending.onward relationsAt
  rw [hlead]
  simp only [pending, hdepth]
  split
  · rfl
  · rw [List.map_map]
    rfl

theorem mem_onward {m : Nat} {c d : Chain} {e : Entity} (h : d ∈ c.onward m e) :
    ∃ r ∈ e.relations, d = c.extend r := by
  unfold onward at h
  split at h
  · cases h
  · obtain ⟨r, hr, rfl⟩ := List.mem_map.1 h
    exact ⟨r, hr, rfl⟩

theorem names_extend (c : Chain) (r : Relation) : (c.extend r).names = c.names ++ [r.name] := by
  simp [names, steps, extend]

theorem path_of_root {c : Chain} (h : c.before = []) : c.path = c.last.name := by
  unfold path pending Pending.path
  rw [h]
  simp [leadOf]

theorem path_of_steps {c d : Chain} (h : d.steps = c.before) :
    c.path = d.path ++ "." ++ c.last.name := by
  unfold path pending Pending.path
  rw [← h, steps, leadOf_concat]
  simp [String.append_assoc]

end Chain

variable {schema : Schema} {m : Nat} {visited : List String} {pending out : List Chain}
  {c : Chain}

/-! ## The walk by chains -/

/-- The walk, step by step, with the chains of what it looks at. -/
inductive Traces (schema : Schema) (m : Nat) : List String → List Chain → List Chain → Prop
  | done {visited : List String} : Traces schema m visited [] []
  | again {visited : List String} {c : Chain} {rest out : List Chain}
    (h : c.target ∈ visited) (hrest : Traces schema m visited rest out) :
    Traces schema m visited (c :: rest) ((if 1 < c.pending.depth then [] else [c]) ++ out)
  | found {visited : List String} {c : Chain} {e : Entity} {rest out : List Chain}
    (h : c.target ∉ visited) (he : schema.entity? c.target = some e)
    (hrest : Traces schema m (c.target :: visited) (c.onward m e ++ rest) out) :
    Traces schema m visited (c :: rest) (c :: out)
  | missing {visited : List String} {c : Chain} {rest out : List Chain}
    (h : c.target ∉ visited) (he : schema.entity? c.target = none)
    (hrest : Traces schema m (c.target :: visited) rest out) :
    Traces schema m visited (c :: rest) (c :: out)

/-- A walk that starts from the ends of chains plans the ends of chains. -/
theorem Walks.traces {ps qs : List Pending} (h : Walks schema m visited ps qs) {cs : List Chain}
    (hcs : ps = cs.map Chain.pending) :
    ∃ ds, qs = ds.map Chain.pending ∧ Traces schema m visited cs ds := by
  induction h generalizing cs with
  | done =>
    obtain rfl := List.map_eq_nil_iff.1 hcs.symm
    exact ⟨[], rfl, .done⟩
  | again h _ ih =>
    obtain ⟨c, cs, rfl, rfl, rfl⟩ := List.map_eq_cons_iff.1 hcs.symm
    obtain ⟨ds, rfl, hds⟩ := ih rfl
    refine ⟨_, ?_, hds.again h⟩
    split <;> rfl
  | @found _ _ e _ _ h he _ ih =>
    obtain ⟨c, cs, rfl, rfl, rfl⟩ := List.map_eq_cons_iff.1 hcs.symm
    have hpending : c.pending.onward m e ++ cs.map Chain.pending =
        (c.onward m e ++ cs).map Chain.pending := by
      rw [List.map_append, Chain.map_pending_onward]
    obtain ⟨ds, rfl, hds⟩ := ih hpending
    exact ⟨c :: ds, rfl, .found h he hds⟩
  | missing h he _ ih =>
    obtain ⟨c, cs, rfl, rfl, rfl⟩ := List.map_eq_cons_iff.1 hcs.symm
    obtain ⟨ds, rfl, hds⟩ := ih rfl
    exact ⟨c :: ds, rfl, .missing h he hds⟩

/-- What holds of all chains that are pending, and is passed on to the chains behind them, holds of
all that is planned. -/
theorem Traces.forall_out {Q : Chain → Prop} (h : Traces schema m visited pending out)
    (hpending : ∀ c ∈ pending, Q c)
    (honward : ∀ c e, Q c → schema.entity? c.target = some e → ∀ r ∈ e.relations, Q (c.extend r)) :
    ∀ c ∈ out, Q c := by
  induction h with
  | done => exact hpending
  | again _ _ ih =>
    obtain ⟨hc, hrest⟩ := List.forall_mem_cons.1 hpending
    intro d hd
    split at hd
    · exact ih hrest d hd
    · rcases List.mem_cons.1 hd with rfl | hd
      · exact hc
      · exact ih hrest d hd
  | @found _ c e _ _ _ he _ ih =>
    obtain ⟨hc, hrest⟩ := List.forall_mem_cons.1 hpending
    refine List.forall_mem_cons.2 ⟨hc, ih ?_⟩
    intro d hd
    rcases List.mem_append.1 hd with hd | hd
    · obtain ⟨r, hr, rfl⟩ := Chain.mem_onward hd
      exact honward c e hc he r hr
    · exact hrest d hd
  | missing _ _ _ ih =>
    obtain ⟨hc, hrest⟩ := List.forall_mem_cons.1 hpending
    exact List.forall_mem_cons.2 ⟨hc, ih hrest⟩

/-! ## Order -/

/-- The chain starts at the root or continues one of the others. -/
def Chain.Continues (done : List Chain) (c : Chain) : Prop :=
  c.before = [] ∨ ∃ d ∈ done, d.steps = c.before

theorem Chain.Continues.mono {done done' : List Chain} (h : c.Continues done)
    (hsub : ∀ d ∈ done, d ∈ done') : c.Continues done' := by
  rcases h with h | ⟨d, hd, h⟩
  · exact .inl h
  · exact .inr ⟨d, hsub d hd, h⟩

/-- Each chain starts at the root or continues one in front of it, where `done` is in front of
all. -/
def Ordered (done : List Chain) : List Chain → Prop
  | [] => True
  | c :: rest => c.Continues done ∧ Ordered (done ++ [c]) rest

/-- Where what is pending continues what has been planned, so does all that is planned next. -/
theorem Traces.ordered (h : Traces schema m visited pending out) {done : List Chain}
    (hpending : ∀ c ∈ pending, c.Continues done) : Ordered done out := by
  have hmore : ∀ {done : List Chain} {c d : Chain}, d.Continues done →
      d.Continues (done ++ [c]) := fun h => h.mono fun _ => List.mem_append_left _
  induction h generalizing done with
  | done => exact trivial
  | again _ _ ih =>
    obtain ⟨hc, hrest⟩ := List.forall_mem_cons.1 hpending
    split
    · exact ih hrest
    · exact ⟨hc, ih fun d hd => hmore (hrest d hd)⟩
  | @found _ c _ _ _ _ _ _ ih =>
    obtain ⟨hc, hrest⟩ := List.forall_mem_cons.1 hpending
    refine ⟨hc, ih ?_⟩
    intro d hd
    rcases List.mem_append.1 hd with hd | hd
    · obtain ⟨r, -, rfl⟩ := Chain.mem_onward hd
      exact .inr ⟨c, by simp, rfl⟩
    · exact hmore (hrest d hd)
  | missing _ _ _ ih =>
    obtain ⟨hc, hrest⟩ := List.forall_mem_cons.1 hpending
    exact ⟨hc, ih fun d hd => hmore (hrest d hd)⟩

/-! ## Distinct names -/

/-- Neither chain goes on from the names of the other. -/
def Chain.Apart (c d : Chain) : Prop := ¬ c.names <+: d.names ∧ ¬ d.names <+: c.names

theorem Chain.Apart.extend {c d : Chain} (h : c.Apart d) (r : Relation) : (c.extend r).Apart d := by
  unfold Apart
  rw [names_extend]
  constructor
  · intro hpre
    exact h.1 ((List.prefix_append _ _).trans hpre)
  · intro hpre
    rcases List.prefix_concat_iff.1 hpre with heq | hpre
    · exact h.1 (heq ▸ List.prefix_append _ _)
    · exact h.2 hpre

theorem Chain.apart_extend (c : Chain) {r r' : Relation} (h : r.name ≠ r'.name) :
    (c.extend r).Apart (c.extend r') := by
  have hne : ∀ {a b : String}, a ≠ b → ¬ c.names ++ [a] <+: c.names ++ [b] := by
    intro a b hab hpre
    exact hab (by simpa [List.prefix_append_right_inj] using hpre)
  unfold Apart
  rw [names_extend, names_extend]
  exact ⟨hne h, hne h.symm⟩

theorem Traces.goes_on (h : Traces schema m visited pending out) :
    ∀ d ∈ out, ∃ c ∈ pending, c.names <+: d.names := by
  refine h.forall_out ?_ ?_
  · intro c hc
    exact ⟨c, hc, List.prefix_rfl⟩
  · rintro d e ⟨c, hc, hpre⟩ - r -
    rw [Chain.names_extend]
    exact ⟨c, hc, hpre.trans (List.prefix_append _ _)⟩

/-- A chain that no pending chain leads to is not planned. -/
theorem Traces.names_notMem (h : Traces schema m visited pending out)
    (hc : ∀ d ∈ pending, ¬ d.names <+: c.names) : c.names ∉ out.map Chain.names := by
  intro hmem
  obtain ⟨d, hd, heq⟩ := List.mem_map.1 hmem
  obtain ⟨d', hd', hpre⟩ := h.goes_on d hd
  exact hc d' hd' (heq ▸ hpre)

/-- Where the relations of every entity have distinct names, no two planned chains have the same
names, since none that is pending goes on from another. -/
theorem Traces.nodup_names (h : Traces schema m visited pending out)
    (hdistinct : ∀ name e, schema.entity? name = some e → (e.relations.map (·.name)).Nodup)
    (hpending : pending.Pairwise Chain.Apart) : (out.map Chain.names).Nodup := by
  induction h with
  | done => exact .nil
  | again _ h ih =>
    obtain ⟨hc, hrest⟩ := List.pairwise_cons.1 hpending
    split
    · exact ih hrest
    · exact List.nodup_cons.2 ⟨h.names_notMem fun d hd => (hc d hd).2, ih hrest⟩
  | @found _ c e rest _ _ he h ih =>
    obtain ⟨hc, hrest⟩ := List.pairwise_cons.1 hpending
    refine List.nodup_cons.2 ⟨h.names_notMem ?_, ih ?_⟩
    · intro d hd hpre
      rcases List.mem_append.1 hd with hd | hd
      · obtain ⟨r, -, rfl⟩ := Chain.mem_onward hd
        have hlength := hpre.length_le
        rw [Chain.names_extend, List.length_append, List.length_singleton] at hlength
        omega
      · exact (hc d hd).2 hpre
    · refine List.pairwise_append.2 ⟨?_, hrest, ?_⟩
      · unfold Chain.onward
        split
        · exact .nil
        · refine List.pairwise_map.2 ?_
          exact (List.pairwise_map.1 (hdistinct _ e he)).imp c.apart_extend
      · intro d hd d' hd'
        obtain ⟨r, -, rfl⟩ := Chain.mem_onward hd
        exact (hc d' hd').extend r
  | missing _ _ h ih =>
    obtain ⟨hc, hrest⟩ := List.pairwise_cons.1 hpending
    exact List.nodup_cons.2 ⟨h.names_notMem fun d hd => (hc d hd).2, ih hrest⟩

/-! ## Plans -/

variable {root : Entity} {maxDepth : UInt8}

/-- The chains that a walk starts from: one for each relation of the root. -/
def rootChains (m : Nat) (root : Entity) : List Chain :=
  if m < 1 then [] else root.relations.map fun r => ⟨[], r⟩

theorem mem_rootChains (h : c ∈ rootChains m root) : ∃ r ∈ root.relations, c = ⟨[], r⟩ := by
  unfold rootChains at h
  split at h
  · cases h
  · obtain ⟨r, hr, rfl⟩ := List.mem_map.1 h
    exact ⟨r, hr, rfl⟩

/-- What is planned are the ends of the chains that the walk traces from the root's relations. -/
theorem exists_traces (schema : Schema) (root : Entity) (maxDepth : UInt8) :
    ∃ cs, relations schema root maxDepth = cs.map Chain.pending ∧
      Traces schema maxDepth.toNat [root.simpleName] (rootChains maxDepth.toNat root) cs := by
  apply (walks schema maxDepth.toNat [root.simpleName] (relationsAt maxDepth.toNat root "" 1)).traces
  unfold relationsAt rootChains
  split
  · rfl
  · rw [List.map_map]
    rfl

end QueryCriteria.FetchPlan
