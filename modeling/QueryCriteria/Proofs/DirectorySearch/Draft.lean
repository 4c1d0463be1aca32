import QueryCriteria.DirectorySearch.Call
import QueryCriteria.Proofs.DirectorySearch.Frame
import QueryCriteria.Proofs.Run
/-!
# Drafts of directory searches as readers

A draft takes a criterion exactly when it has a leaf for its comparison and the outline of the
frames goes on with its tokens (`add_agrees`). The criteria it records are those of the calls that
succeeded (`restrictionCriteria_run`).
-/

namespace QueryCriteria.DirectorySearch

/-! ## Leaves -/

/-- The comparisons that a filter can assert, and what it asserts for them. "Less or equal" is
asserted as "greater or equal". -/
def assertions : List (Comparison × Assertion) :=
  [(.equal, .equal), (.notEqual, .notEqual), (.greaterThanOrEqual, .greaterOrEqual),
    (.lessThanOrEqual, .greaterOrEqual)]

theorem Draft.toOption_assertion (comparison : Comparison) :
    (assertion comparison).toOption = assertions.lookup comparison := by
  cases comparison <;> rfl

/-- The leaf for a comparison: the attribute of its operand, the assertion of its operator and the
literal of its value. -/
def leafFor? (attributes : OrderedMap String) (c : Criterion) : Option Filter := do
  let attributeName ← attributes.get? (← c.operand)
  let assertion ← assertions.lookup c.comparison
  let literal ← (← c.value).literal?
  return .compare attributeName assertion literal

/-- The leaf for a comparison that has one. -/
def leafOf (attributes : OrderedMap String) (c : Criterion) : Filter :=
  (leafFor? attributes c).getD (.compare "" .equal "")

/-- A leaf compares an attribute of the mapping. -/
theorem leafFor?_eq_some {attributes : OrderedMap String} {c : Criterion} {f : Filter}
    (h : leafFor? attributes c = some f) : ∃ operand attributeName assertion literal,
      attributes.get? operand = some attributeName ∧
        f = .compare attributeName assertion literal := by
  simp only [leafFor?, Option.bind_eq_bind, Option.bind_eq_some_iff] at h
  obtain ⟨operand, -, attributeName, hname, assertion, -, value, -, literal, -, heq⟩ := h
  exact ⟨operand, attributeName, assertion, literal, hname, (Option.some.inj heq).symm⟩

/-- Only a comparison with a value has a leaf. -/
theorem value_isSome_of_leafFor? {attributes : OrderedMap String} {c : Criterion}
    (h : (leafFor? attributes c).isSome = true) : c.value.isSome = true := by
  obtain ⟨f, hf⟩ := Option.isSome_iff_exists.1 h
  simp only [leafFor?, Option.bind_eq_bind, Option.bind_eq_some_iff] at hf
  obtain ⟨_, -, _, -, _, -, value, hvalue, -⟩ := hf
  rw [hvalue]
  rfl

/-- The filter compares one attribute with one value: it is neither a test of object classes nor a
group. -/
def Filter.IsComparison : Filter → Prop
  | .compare _ _ _ => True
  | _ => False

theorem Filter.IsComparison.comparisons_eq {f : Filter} (h : f.IsComparison) :
    f.comparisons = [f] := by
  cases f with
  | compare => rfl
  | objectClasses | group => cases h

/-- What stands for a comparison is one comparison. -/
theorem isComparison_leafOf (attributes : OrderedMap String) (c : Criterion) :
    (leafOf attributes c).IsComparison := by
  unfold leafOf
  cases h : leafFor? attributes c with
  | none => trivial
  | some f =>
    obtain ⟨_, _, _, _, _, rfl⟩ := leafFor?_eq_some h
    trivial

theorem comparisons_leafOf (attributes : OrderedMap String) (c : Criterion) :
    (leafOf attributes c).comparisons = [leafOf attributes c] :=
  (isComparison_leafOf attributes c).comparisons_eq

/-! ## Calls -/

/-- The restrictions and brackets that a call brings. -/
def Call.restrictions : Call → List Criterion
  | .add c => [c]
  | .addAll cs => cs
  | .addOrder _ => []
  | .addOrders _ => []
  | .apply set => set.restrictions

namespace Draft

variable {d d' : Draft} {c : Criterion}

/-- A draft has the leaf for a comparison when there is one and its operand is not blank. -/
theorem leaf_eq_ok_iff {f : Filter} : d.leaf c = .ok f ↔
    leafFor? d.attributes c = some f ∧ c.operand.any (!Text.isBlank ·) = true := by
  unfold leaf leafFor? Criterion.requireOperand Criterion.requireValue
  rw [← toOption_assertion]
  cases assertion c.comparison with
  | error fault =>
    cases c.operand with
    | none => simp
    | some operand => cases d.attributes.get? operand <;> simp [Except.toOption]
  | ok assertion =>
    cases c.operand with
    | none => simp
    | some operand =>
      cases hb : Text.isBlank operand with
      | true => simp [hb]
      | false =>
        cases h : d.attributes.get? operand with
        | none => simp [h, hb]
        | some attributeName =>
          cases c.value with
          | none => simp [h, hb]
          | some value => cases hl : value.literal? <;> simp [Except.toOption, h, hl, hb]

/-- A criterion brings the leaf for its comparison, or is a bare bracket. -/
theorem leaf?_eq_ok {f? : Option Filter} (h : d.leaf? c = .ok f?) :
    (∃ f, f? = some f ∧ c.role = .ok .restriction ∧ d.leaf c = .ok f) ∨
      (f? = none ∧ c.role = .ok .enclosure) := by
  obtain ⟨role, hr, h⟩ := bind_eq_ok_iff.1 h
  cases role with
  | restriction =>
    cases hf : d.leaf c with
    | error fault => rw [hf] at h; cases h
    | ok f =>
      rw [hf] at h
      cases h
      exact .inl ⟨f, rfl, hr, rfl⟩
  | enclosure => cases h; exact .inr ⟨rfl, hr⟩
  | join => cases h
  | order => cases h

/-- The comparison of a criterion that is taken has a leaf, which is what the criterion brings. -/
theorem leaf?_eq_compared? {f? : Option Filter} (h : d.leaf? c = .ok f?) :
    f? = c.compared?.map (leafOf d.attributes) ∧
      (Operator.isDefined c.enclosure = true ∨ c.compared?.isSome = true) ∧
      ∀ a, c.compared? = some a → (leafFor? d.attributes a).isSome = true := by
  unfold Criterion.compared?
  rcases leaf?_eq_ok h with ⟨f, rfl, hr, hf⟩ | ⟨rfl, hr⟩
  · have hleaf := (leaf_eq_ok_iff.1 hf).1
    rw [if_pos (Criterion.isDefined_of_restriction hr)]
    refine ⟨by simp [leafOf, hleaf], .inr rfl, fun a ha => ?_⟩
    cases ha
    rw [hleaf]
    rfl
  · obtain ⟨hc, he⟩ := Criterion.isDefined_of_enclosure hr
    rw [if_neg (by simp [hc])]
    exact ⟨rfl, .inl he, by simp⟩

/-! ## One criterion -/

/-- A criterion that is taken finds its place among the frames and is recorded. -/
theorem add_eq_ok_iff : d.add c = .ok d' ↔ ∃ f? frames, d.leaf? c = .ok f? ∧
    place d.frames c f? = .ok frames ∧
    d' = { d with frames, restrictionCriteria := d.restrictionCriteria ++ [c] } := by
  unfold add
  simp only [bind_eq_ok_iff]
  constructor
  · rintro ⟨f?, hf, frames, hp, h⟩
    cases h
    exact ⟨f?, frames, hf, hp, rfl⟩
  · rintro ⟨f?, frames, hf, hp, rfl⟩
    exact ⟨f?, hf, frames, hp, rfl⟩

/-- A criterion whose leaf is known is taken when the outline goes on with its tokens. -/
theorem add_agrees {α : Type} {leaf : α → Filter} {seed : Filter} {o : Outline α} {a? : Option α}
    (h : Holds leaf seed o d.frames) (hl : d.leaf? c = .ok (a?.map leaf))
    (hc : Operator.isDefined c.enclosure = true ∨ a?.isSome = true) :
    Agrees (fun o d' => Holds leaf seed o d'.frames ∧ d'.attributes = d.attributes)
      (o.read? (c.tokens a?)) (d.add c) := by
  unfold add
  rw [hl]
  exact (place_agrees h c hc).map fun _ _ hp => ⟨hp, rfl⟩

/-- Criteria that are taken are recorded. -/
theorem restrictionCriteria_addAll {cs : List Criterion} (h : d.addAll cs = .ok d') :
    d'.restrictionCriteria = d.restrictionCriteria ++ cs := by
  refine foldlM_ok_record (r := restrictionCriteria) (fun _ c _ h => ?_) h
  obtain ⟨_, _, -, -, rfl⟩ := add_eq_ok_iff.1 h
  rfl

/-- The filter of a draft is what there is of the top level. -/
theorem filter?_of_holds {α : Type} {leaf : α → Filter} {seed : Filter} {o : Outline α}
    (h : Holds leaf seed o d.frames) : d.filter? = some (topFilter leaf seed o.topLevel?) ∧
      d.filterText = (topFilter leaf seed o.topLevel?).text := by
  have hfilter : d.filter? = some (topFilter leaf seed o.topLevel?) := h.getLast?_filter
  refine ⟨hfilter, ?_⟩
  rw [filterText, hfilter]
  rfl

/-! ## Runs -/

/-- A call that succeeds does nothing but add its restrictions and brackets. -/
theorem addAll_of_perform {call : Call} (h : d.perform call = .ok d') :
    d.addAll call.restrictions = .ok d' := by
  cases call with
  | add c =>
    have hadd : d.add c = .ok d' := h
    simp only [addAll, Call.restrictions, List.foldlM_cons, List.foldlM_nil, hadd, ok_bind]
    rfl
  | addAll cs => exact h
  | addOrder c => cases h
  | addOrders cs => cases h
  | apply set =>
    have happly : d.apply set = .ok d' := h
    unfold apply at happly
    split at happly
    · obtain ⟨d₁, h₁, horders⟩ := bind_eq_ok_iff.1 happly
      split at horders
      · cases horders
        exact h₁
      · cases horders
    · cases happly

/-- What every accepted criterion keeps, every run of calls keeps. -/
theorem run_invariant {P : Draft → Prop}
    (hadd : ∀ (d : Draft) (c : Criterion) (d' : Draft), P d → d.add c = .ok d' → P d') (hd : P d)
    (calls : List Call) : P (d.run calls) :=
  foldl_after_keeps (fun _ _ _ hd h => foldlM_ok_invariant hadd hd (addAll_of_perform h)) hd calls

/-- The criteria of the calls of a run that succeed, in order. -/
def accepted (d : Draft) (calls : List Call) : List Criterion :=
  brought perform Call.restrictions d calls

/-- A draft records exactly the criteria that are accepted. -/
theorem restrictionCriteria_run (d : Draft) (calls : List Call) :
    (d.run calls).restrictionCriteria = d.restrictionCriteria ++ accepted d calls :=
  record_run (fun _ _ _ h => restrictionCriteria_addAll (addAll_of_perform h)) d calls

end Draft

end QueryCriteria.DirectorySearch
