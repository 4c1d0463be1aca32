import QueryCriteria.Proofs.DirectorySearch.Reference
import QueryCriteria.Proofs.EntityQuery.Draft
/-!
# The agreement of drafts

A draft of an entity query looks at the last fragment it has written, one of a directory search at
its innermost frame. Fed with criteria that both can express, they read the same outline: they take
the same ones, have the same groups open and compile at the same points.
-/

open QueryCriteria.DirectorySearch (Filter Holds leafFor?)
open QueryCriteria.EntityQuery (Predicate)
open QueryCriteria.EntityQuery.Draft (Writes)

namespace QueryCriteria

/-- A criterion that queries of both kinds can express: a bare bracket, or a comparison of a mapped
operand with a scalar by an operator that directories have. -/
inductive Shared (attributes : OrderedMap String) (c : Criterion) : Prop
  | bracket (hr : c.role = .ok .enclosure)
  | comparison {operand : String} {value : Value} (hr : c.role = .ok .restriction)
      (hcomparison : c.comparison ∈ [.equal, .notEqual, .greaterThanOrEqual, .lessThanOrEqual])
      (hoperand : c.operand = some operand) (hblank : Text.isBlank operand = false)
      (hmapped : (attributes.get? operand).isSome = true)
      (hvalue : c.value = some value) (hlist : value.isList = false)

/-- Both drafts have read the same outline. -/
structure InStep (attributes : OrderedMap String) (d : EntityQuery.Draft)
    (e : DirectorySearch.Draft) : Prop where
  attributes : e.attributes = attributes
  outline : ∃ (seed : Filter) (o : Outline (Predicate × Filter)),
    Writes Prod.fst o d ∧ Holds Prod.snd seed o e.frames

variable {attributes : OrderedMap String} {d : EntityQuery.Draft} {e : DirectorySearch.Draft}
  {c : Criterion}

/-- Both drafts have something that stands for the comparison of a shared criterion. -/
theorem predicate_and_leaf {operand : String} {value : Value}
    (hcomparison : c.comparison ∈ [.equal, .notEqual, .greaterThanOrEqual, .lessThanOrEqual])
    (hoperand : c.operand = some operand) (hblank : Text.isBlank operand = false)
    (hmapped : (e.attributes.get? operand).isSome = true) (hvalue : c.value = some value)
    (hlist : value.isList = false) :
    ∃ (p : Predicate) (f : Filter), d.predicate c = .ok (p, some value) ∧ e.leaf c = .ok f := by
  obtain ⟨attributeName, hname⟩ := Option.isSome_iff_exists.1 hmapped
  obtain ⟨literal, hliteral⟩ : ∃ literal, value.literal? = some literal :=
    Option.isSome_iff_exists.1 (by rw [value.literal?_isSome, hlist]; rfl)
  have hassertion : ∃ assertion, DirectorySearch.assertions.lookup c.comparison = some assertion ∧
      c.comparison.shape = .binary := by
    simp only [List.mem_cons, List.not_mem_nil, or_false] at hcomparison
    rcases hcomparison with h | h | h | h <;> rw [h] <;> exact ⟨_, rfl, rfl⟩
  obtain ⟨assertion, hassertion, hshape⟩ := hassertion
  refine ⟨⟨d.rootAlias ++ "." ++ operand, c.comparison, some d.parameters.nextName⟩,
    .compare attributeName assertion literal, ?_, ?_⟩
  · unfold EntityQuery.Draft.predicate Criterion.requireOperand Criterion.requireValue
    simp only [hoperand, hblank, hshape, hvalue, ok_bind, Bool.false_eq_true, if_false]
    rfl
  · refine DirectorySearch.Draft.leaf_eq_ok_iff.2 ⟨?_, by simp [hoperand, hblank]⟩
    simp [leafFor?, hoperand, hname, hassertion, hvalue, hliteral]

/-- A shared criterion is taken by both drafts, which stay in step, or by none. -/
theorem InStep.add (h : InStep attributes d e) (hc : Shared attributes c) :
    (∃ d' e', d.add c = .ok d' ∧ e.add c = .ok e' ∧ InStep attributes d' e') ∨
      ∃ fault fault', d.add c = .error fault ∧ e.add c = .error fault' := by
  obtain ⟨rfl, seed, o, hw, hh⟩ := h
  -- Both outcomes are tied to the reading of the same tokens, which decides them.
  obtain ⟨a?, hw', hh'⟩ : ∃ a? : Option (Predicate × Filter),
      Agrees (Writes Prod.fst) (o.read? (c.tokens a?)) (d.add c) ∧
      Agrees (fun o e' => Holds Prod.snd seed o e'.frames ∧ e'.attributes = e.attributes)
        (o.read? (c.tokens a?)) (e.add c) := by
    cases hc with
    | bracket hr =>
      have hl : e.leaf? c = .ok none := by
        unfold DirectorySearch.Draft.leaf?
        rw [hr]
        rfl
      exact ⟨none, EntityQuery.Draft.add_agrees_of_enclosure hw hr,
        DirectorySearch.Draft.add_agrees hh hl (.inl (Criterion.isDefined_of_enclosure hr).2)⟩
    | comparison hr hcomparison hoperand hblank hmapped hvalue hlist =>
      obtain ⟨p, f, hp, hf⟩ := predicate_and_leaf (d := d) hcomparison hoperand hblank hmapped
        hvalue hlist
      have hl : e.leaf? c = .ok (some f) := by
        unfold DirectorySearch.Draft.leaf?
        rw [hr, ok_bind, hf]
        rfl
      exact ⟨some (p, f), EntityQuery.Draft.add_agrees_of_restriction hw hr hp,
        DirectorySearch.Draft.add_agrees hh hl (.inr rfl)⟩
  generalize o.read? (c.tokens a?) = x, d.add c = y, e.add c = z at hw' hh'
  cases hw' with
  | ok hd =>
    cases hh' with
    | ok he => exact .inl ⟨_, _, rfl, rfl, he.2, seed, _, hd, he.1⟩
  | error fault =>
    cases hh' with
    | error fault' => exact .inr ⟨fault, fault', rfl, rfl⟩

/-- Drafts stay in step while shared criteria are fed to both, one at a time. -/
theorem InStep.run (h : InStep attributes d e) {cs : List Criterion}
    (hcs : ∀ c ∈ cs, Shared attributes c) :
    InStep attributes (d.run (cs.map .add)) (e.run (cs.map .add)) := by
  induction cs generalizing d e with
  | nil => exact h
  | cons c cs ih =>
    have hstep : InStep attributes (d.step (.add c)) (e.step (.add c)) := by
      unfold EntityQuery.Draft.step DirectorySearch.Draft.step after
      simp only [EntityQuery.Draft.perform, DirectorySearch.Draft.perform]
      rcases h.add (hcs c (.head _)) with ⟨d', e', hd, he, h'⟩ | ⟨fault, fault', hd, he⟩
      · rw [hd, he]
        exact h'
      · rw [hd, he]
        exact h
    exact ih hstep fun c' hc' => hcs c' (.tail _ hc')

/-- New drafts are in step. -/
theorem inStep_create {entity : String} {schema : Schema} {settings : Settings}
    {mapping : DirectorySearch.Mapping}
    (hd : EntityQuery.Draft.create entity schema settings = .ok d)
    (he : DirectorySearch.Draft.create mapping = .ok e) : InStep mapping.attributes d e := by
  obtain ⟨name, rootAlias, hs⟩ := EntityQuery.Draft.sameWhere_create hd
  obtain ⟨-, ha, hf, -⟩ := DirectorySearch.Draft.create_eq_ok he
  refine ⟨ha, mapping.seed, .empty, ⟨hs.restrictions, hs.openGroups⟩, ?_⟩
  rw [hf]
  exact .top none

/-- The two drafts behave in the same way. -/
structure Agreement (attributes : OrderedMap String) (d : EntityQuery.Draft)
    (e : DirectorySearch.Draft) : Prop where
  /-- They take the same shared criteria. -/
  adds : ∀ c, Shared attributes c → ((∃ d', d.add c = .ok d') ↔ ∃ e', e.add c = .ok e')
  /-- They have the same number of groups open, besides the root. -/
  openGroups : d.openGroups + 1 = e.frames.length
  /-- They compile together. -/
  compiles : (∃ query, d.compile = .ok query) ↔ ∃ search, e.compile = .ok search

theorem InStep.agreement (h : InStep attributes d e) : Agreement attributes d e := by
  obtain ⟨seed, o, hw, hh⟩ := h.outline
  have hopen : d.openGroups + 1 = e.frames.length := by rw [hw.openGroups, hh.length_eq]
  refine ⟨fun c hc => ?_, hopen, ?_⟩
  · rcases h.add hc with ⟨d', e', hd, he, -⟩ | ⟨fault, fault', hd, he⟩
    · exact ⟨fun _ => ⟨e', he⟩, fun _ => ⟨d', hd⟩⟩
    · rw [hd, he]
      exact ⟨fun ⟨_, h⟩ => (nomatch h), fun ⟨_, h⟩ => (nomatch h)⟩
  · unfold EntityQuery.Draft.compile DirectorySearch.Draft.compile
    rw [← hopen]
    by_cases hpos : 0 < d.openGroups
    · rw [if_pos hpos, if_pos (by omega)]
      exact ⟨fun ⟨_, h⟩ => (nomatch h), fun ⟨_, h⟩ => (nomatch h)⟩
    · rw [if_neg hpos, if_neg (by omega)]
      exact ⟨fun _ => ⟨_, rfl⟩, fun _ => ⟨_, rfl⟩⟩

/-- New drafts of both kinds agree at every step while shared criteria are fed to both, one at a
time, and those that are refused are skipped. -/
theorem agreement_run {entity : String} {schema : Schema} {settings : Settings}
    {mapping : DirectorySearch.Mapping}
    (hd : EntityQuery.Draft.create entity schema settings = .ok d)
    (he : DirectorySearch.Draft.create mapping = .ok e) {cs : List Criterion}
    (hcs : ∀ c ∈ cs, Shared mapping.attributes c) :
    Agreement mapping.attributes (d.run (cs.map .add)) (e.run (cs.map .add)) :=
  ((inStep_create hd he).run hcs).agreement

/-- Criteria of which both drafts refuse the second: a group that has something before it needs a
connective. -/
theorem agreement_run_refused : ∃ d e,
    EntityQuery.Draft.create "Person" (Schema.ofList [⟨"Person", []⟩]) ⟨.disabled, 3⟩ = .ok d ∧
    DirectorySearch.Draft.create .people = .ok e ∧
    let cs : List Criterion :=
      [.comparing "name" .notEqual (.string "Ann"), .marker .opening,
        (Criterion.comparing "mail" .lessThanOrEqual (.boolean true)).withLogical .or]
    (∀ c ∈ cs, Shared DirectorySearch.Mapping.people.attributes c) ∧
      (d.run (cs.map .add)).restrictionCriteria.length = 2 ∧
      (e.run (cs.map .add)).restrictionCriteria.length = 2 ∧
      Agreement DirectorySearch.Mapping.people.attributes (d.run (cs.map .add))
        (e.run (cs.map .add)) := by
  have hd : EntityQuery.Draft.create "Person" (Schema.ofList [⟨"Person", []⟩]) ⟨.disabled, 3⟩ =
      .ok _ := rfl
  have he : DirectorySearch.Draft.create .people = .ok _ := rfl
  refine ⟨_, _, hd, he, ?_⟩
  intro cs
  have hcs : ∀ c ∈ cs, Shared DirectorySearch.Mapping.people.attributes c := by
    simp only [cs, List.forall_mem_cons]
    exact ⟨.comparison rfl (by decide) rfl rfl rfl rfl rfl, .bracket rfl,
      .comparison rfl (by decide) rfl rfl rfl rfl rfl, by simp⟩
  exact ⟨hcs, rfl, rfl, agreement_run hd he hcs⟩

end QueryCriteria
