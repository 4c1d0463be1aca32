import QueryCriteria.Proofs.FetchPlan.Chain
import QueryCriteria.Proofs.FetchPlan.Limit
/-!
# Fetch plans in preorder

Every planned relation ends a chain that declared relations make from the root (`Chain.Leads`). A
plan holds its chains in depth-first preorder: each comes behind the one that it continues, with
nothing between the two that does not go on from there (`Traces.arranged`). The relations of the
root are all planned, in the order in which they are declared (`fetchPlan_preorder`).
-/

namespace QueryCriteria.FetchPlan

variable {schema : Schema} {m : Nat} {visited : List String} {pending out : List Chain}
  {c : Chain} {root : Entity}

/-! ## Declared chains -/

namespace Chain

/-- The first relation of a chain is one of the root's, and each of the others one of the entity
that the relation before it leads to. -/
inductive Leads (schema : Schema) (root : Entity) : Chain → Prop
  | first {r : Relation} (hr : r ∈ root.relations) : Leads schema root ⟨[], r⟩
  | extend {c : Chain} {e : Entity} {r : Relation} (h : Leads schema root c)
    (he : schema.entity? (simpleName c.last.target) = some e) (hr : r ∈ e.relations) :
    Leads schema root (c.extend r)

theorem path_eq_intercalate (c : Chain) : c.path = String.intercalate "." c.names := by
  obtain ⟨before, last⟩ := c
  show leadOf before ++ last.name = String.intercalate "." ((before ++ [last]).map (·.name))
  induction before with
  | nil => simp [leadOf]
  | cons r rs ih =>
    rw [List.cons_append, List.map_cons, String.intercalate_cons_of_ne_nil (by simp), ← ih]
    simp [leadOf, String.append_assoc]

/-- The chain as a fetch of the plan. -/
theorem planned_pending (c : Chain) : c.pending.planned =
    ⟨String.intercalate "." c.names, c.last.cardinality, min c.steps.length 255⟩ := by
  rw [← path_eq_intercalate, steps, List.length_append, List.length_singleton]
  rfl

end Chain

/-- Only chains of declared relations are planned. -/
theorem Traces.leads (h : Traces schema m visited pending out)
    (hpending : ∀ c ∈ pending, c.Leads schema root) : ∀ c ∈ out, c.Leads schema root := by
  apply h.forall_out hpending
  intro c e hc he r hr
  exact .extend hc he hr

/-! ## Preorder -/

/-- The chain starts at the root, or continues one of the others such that all behind that one go
on from it. -/
def Chain.Follows (done : List Chain) (c : Chain) : Prop :=
  c.before = [] ∨ ∃ xs parent ys, done = xs ++ parent :: ys ∧ parent.steps = c.before ∧
    ∀ d ∈ ys, parent.steps <+: d.before

theorem Chain.Follows.concat {done : List Chain} {d : Chain} (h : c.Follows done)
    (hd : c.before <+: d.before) : c.Follows (done ++ [d]) := by
  rcases h with h | ⟨xs, parent, ys, rfl, hparent, hys⟩
  · exact .inl h
  · refine .inr ⟨xs, parent, ys ++ [d], by simp, hparent, ?_⟩
    exact List.forall_mem_append.2 ⟨hys, List.forall_mem_singleton.2 (hparent ▸ hd)⟩

/-- Each chain follows those in front of it, where `done` is in front of all. -/
def Arranged (done : List Chain) : List Chain → Prop
  | [] => True
  | c :: rest => c.Follows done ∧ Arranged (done ++ [c]) rest

/-- What is pending follows what has been planned and goes on from nothing that is pending behind
it; so all that is planned next is arranged. -/
theorem Traces.arranged (h : Traces schema m visited pending out) {done : List Chain}
    (hpending : ∀ c ∈ pending, c.Follows done)
    (hnested : pending.Pairwise fun c d => d.before <+: c.before) : Arranged done out := by
  induction h generalizing done with
  | done => exact trivial
  | again _ _ ih =>
    obtain ⟨hc, hrest⟩ := List.forall_mem_cons.1 hpending
    obtain ⟨hlead, hnested⟩ := List.pairwise_cons.1 hnested
    split
    · exact ih hrest hnested
    · exact ⟨hc, ih (fun d hd => (hrest d hd).concat (hlead d hd)) hnested⟩
  | @found _ c _ _ _ _ _ _ ih =>
    obtain ⟨hc, hrest⟩ := List.forall_mem_cons.1 hpending
    obtain ⟨hlead, hnested⟩ := List.pairwise_cons.1 hnested
    refine ⟨hc, ih ?_ (List.pairwise_append.2 ⟨?_, hnested, ?_⟩)⟩
    · intro d hd
      rcases List.mem_append.1 hd with hd | hd
      · obtain ⟨r, -, rfl⟩ := Chain.mem_onward hd
        exact .inr ⟨_, c, [], rfl, rfl, nofun⟩
      · exact (hrest d hd).concat (hlead d hd)
    · refine List.pairwise_of_forall_mem_list ?_
      intro d hd d' hd'
      obtain ⟨r, -, rfl⟩ := Chain.mem_onward hd
      obtain ⟨r', -, rfl⟩ := Chain.mem_onward hd'
      exact List.prefix_rfl
    · -- What was pending leads no further than this chain, so not beyond the chains behind it.
      intro d hd d' hd'
      obtain ⟨r, -, rfl⟩ := Chain.mem_onward hd
      exact (hlead d' hd').trans (List.prefix_append _ _)
  | missing _ _ _ ih =>
    obtain ⟨hc, hrest⟩ := List.forall_mem_cons.1 hpending
    obtain ⟨hlead, hnested⟩ := List.pairwise_cons.1 hnested
    exact ⟨hc, ih (fun d hd => (hrest d hd).concat (hlead d hd)) hnested⟩

theorem Arranged.follows {done before after : List Chain}
    (h : Arranged done (before ++ c :: after)) : c.Follows (done ++ before) := by
  induction before generalizing done with
  | nil => simpa using h.1
  | cons d before ih => simpa using ih h.2

/-- In front of a chain of an arranged list stand all chains that it goes on from. -/
theorem Arranged.exists_prefix {cs before after : List Chain} (h : Arranged [] cs)
    (hcs : cs = before ++ c :: after) {rs : List Relation} (hrs : rs <+: c.before) (hne : rs ≠ []) :
    ∃ d ∈ before, d.steps = rs := by
  -- By induction on the place of the chain: the one that it continues stands further in front.
  induction hn : before.length using Nat.strongRecOn generalizing c before after with
  | _ n ih =>
    subst hcs
    rcases h.follows with hroot | ⟨xs, parent, ys, hdone, hparent, -⟩
    · rw [hroot, List.prefix_nil] at hrs
      exact absurd hrs hne
    · rw [List.nil_append] at hdone
      subst hdone
      rw [← hparent] at hrs
      rcases List.prefix_concat_iff.1 hrs with heq | hrs
      · exact ⟨parent, by simp, heq.symm⟩
      · obtain ⟨d, hd, heq⟩ := ih xs.length (by simp [← hn]) (List.append_assoc _ _ _) hrs rfl
        exact ⟨d, List.mem_append_left _ hd, heq⟩

/-! ## Relations of the root -/

/-- Of the chains of one relation, exactly those that are pending are planned. -/
theorem Traces.filter_direct (h : Traces schema m visited pending out) :
    out.filter (·.before = []) = pending.filter (·.before = []) := by
  induction h with
  | done => rfl
  | @again _ c _ _ _ _ ih =>
    rw [List.filter_append, ih]
    split
    · next hdepth =>
      have hdeep : c.before ≠ [] := by
        intro hroot
        simp [Chain.pending, hroot] at hdepth
      simp [hdeep]
    · exact (List.filter_append [c] _).symm
  | @found _ c e _ _ _ _ _ ih =>
    have honward : (c.onward m e).filter (·.before = []) = [] := by
      refine List.filter_eq_nil_iff.2 fun d hd => ?_
      obtain ⟨r, -, rfl⟩ := Chain.mem_onward hd
      simp [Chain.extend, Chain.steps]
    rw [List.filter_cons, List.filter_cons, ih, List.filter_append, honward, List.nil_append]
  | missing _ _ _ ih => rw [List.filter_cons, List.filter_cons, ih]

theorem length_steps_le {maxDepth : UInt8} {cs : List Chain}
    (hcs : relations schema root maxDepth = cs.map Chain.pending) (hc : c ∈ cs) :
    maxDepth = 255 ∨ c.steps.length ≤ maxDepth.toNat := by
  have hdepth : min (c.before.length + 1) 255 ≤ maxDepth.toNat :=
    depth_le_limit (hcs ▸ List.mem_map_of_mem hc)
  have hsize := maxDepth.toNat_lt
  rw [Chain.steps, List.length_append, List.length_singleton, ← UInt8.toNat_inj]
  show maxDepth.toNat = 255 ∨ _
  omega

/-- Every planned fetch is the end of a chain of declared relations within the limit, told by its
names, and stands in depth-first preorder: behind all chains that it goes on from, and with nothing
between it and the last of these but chains that go on from there too. Unless no step is allowed,
the chains of one relation are those of the root, as declared. -/
theorem fetchPlan_preorder (schema : Schema) (root : Entity) (maxDepth : UInt8) :
    ∃ cs : List Chain,
      fetchPlan schema root maxDepth = cs.map (fun c =>
        ⟨String.intercalate "." c.names, c.last.cardinality, min c.steps.length 255⟩) ∧
      (∀ c ∈ cs, c.Leads schema root ∧ (maxDepth = 255 ∨ c.steps.length ≤ maxDepth.toNat)) ∧
      (∀ before c after, cs = before ++ c :: after →
        (∀ rs, rs <+: c.steps → rs ≠ [] → rs ≠ c.steps → ∃ d ∈ before, d.steps = rs) ∧
        (c.before = [] ∨ ∃ xs parent ys, before = xs ++ parent :: ys ∧ parent.steps = c.before ∧
          ∀ d ∈ ys, parent.steps <+: d.before)) ∧
      (1 ≤ maxDepth → cs.filter (·.before = []) = root.relations.map fun r => ⟨[], r⟩) ∧
      (maxDepth = 0 → fetchPlan schema root maxDepth = []) := by
  obtain ⟨cs, hcs, h⟩ := exists_traces schema root maxDepth
  have hroot : ∀ c ∈ rootChains maxDepth.toNat root, c.before = [] := by
    intro c hc
    obtain ⟨r, -, rfl⟩ := mem_rootChains hc
    rfl
  have harranged : Arranged [] cs := by
    apply h.arranged (fun c hc => .inl (hroot c hc))
    refine List.pairwise_of_forall_mem_list fun c hc d hd => ?_
    rw [hroot d hd]
    exact List.nil_prefix
  refine ⟨cs, ?_, ?_, ?_, ?_, ?_⟩
  · rw [fetchPlan, hcs, List.map_map]
    exact List.map_congr_left fun c _ => c.planned_pending
  · intro c hc
    refine ⟨h.leads ?_ c hc, length_steps_le hcs hc⟩
    intro d hd
    obtain ⟨r, hr, rfl⟩ := mem_rootChains hd
    exact .first hr
  · intro before c after hsplit
    constructor
    · intro rs hrs hne hproper
      have hbefore := (List.prefix_concat_iff.1 hrs).resolve_left hproper
      exact harranged.exists_prefix hsplit hbefore hne
    · exact (hsplit ▸ harranged).follows
  · intro hone
    have hlimit : ¬ maxDepth.toNat < 1 := Nat.not_lt.2 hone
    rw [h.filter_direct, List.filter_eq_self.2 (by simpa using hroot), rootChains, if_neg hlimit]
  · rintro rfl
    rw [fetchPlan, relations, relationsAt, if_pos (by decide), walk]
    rfl

end QueryCriteria.FetchPlan
