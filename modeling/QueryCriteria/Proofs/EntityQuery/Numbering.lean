import QueryCriteria.EntityQuery.Fetching
import QueryCriteria.Proofs.EntityQuery.Spelling
/-!
# The numbering of parameters

After every run of calls, the table of parameters holds the values of the accepted comparisons
without a gap, and each predicate names the parameter of its own value. What has been written and
bound stays as it is, whatever is called later (`numbers_run`).
-/

namespace QueryCriteria

/-- The value that a criterion binds: that of a comparison which takes one. -/
def Criterion.bound? (c : Criterion) : Option Value :=
  match c.comparison.shape with
  | .binary | .membership => c.value
  | .unary | .none => none

/-- The values that criteria bind are those of the restrictions that they spell. -/
theorem Spells.bound_eq {cs : List Criterion} {ts : List (Token Restriction)} (h : Spells cs ts) :
    cs.filterMap Criterion.bound? = valuesOf (restrictionsOf ts) := by
  induction h with
  | nil => rfl
  | @cons c cs ts us hc _ ih =>
    rw [restrictionsOf_append, valuesOf_append, ← ih]
    rcases hc.cases with ⟨hr, rfl⟩ | ⟨r, heq, rfl⟩
    · have hbound : c.bound? = none := by
        simp [Criterion.bound?, (Criterion.join_order_of_enclosure hr).1, Comparison.shape]
      simp [hbound, restrictionsOf_tokens, valuesOf]
    · have hbound : c.bound? = r.value := by
        have hcomparison : c.comparison = r.comparison := congrArg Criterion.comparison heq
        have hvalue : c.value = r.value := congrArg Criterion.value heq
        rw [Criterion.bound?, hcomparison, hvalue]
        rcases r.value_cases with ⟨hs, hv⟩ | ⟨hs | hs, value, hv⟩ <;> simp [hs, hv]
      cases hv : r.value <;> simp [hbound, hv, restrictionsOf_tokens, valuesOf]

namespace EntityQuery.Draft

/-- The draft has numbered the values of the accepted criteria, and names them by their numbers. -/
structure Numbers (rootAlias : String) (accepted : List Criterion) (d : Draft) : Prop where
  /-- The table holds the values of the accepted comparisons that take one, in order. -/
  parameters : d.parameters.toList = named (accepted.filterMap Criterion.bound?)
  /-- The next value gets the next number. -/
  nextName : d.parameters.nextName =
    parameterName ((accepted.filterMap Criterion.bound?).length + 1)
  /-- The predicates are those of the accepted comparisons, one for one and in order. Where a
  comparison takes a value, its text holds the number of that value. -/
  predicates : ∃ rs : List Restriction,
    (accepted.filterMap Criterion.compared?).map Criterion.bare = rs.map Restriction.bare ∧
    d.restrictions.filterMap Fragment.predicate? = (numberFrom 1 rs).map (leafOf rootAlias) ∧
    (d.restrictions.filterMap Fragment.predicate?).map Predicate.text =
      (numberFrom 1 rs).map fun p => p.2.text rootAlias p.1
  /-- The parameters that predicates name are those of the table, in order. -/
  names : (d.restrictions.filterMap Fragment.predicate?).filterMap Predicate.parameter =
    d.parameters.toList.map (·.1)

theorem Follows.numbers {rootAlias : String} {ts : List (Token Restriction)}
    {o : Outline (Nat × Restriction)} {d : Draft} {accepted : List Criterion}
    (h : Follows rootAlias ts o d) (hts : Spells accepted ts) : Numbers rootAlias accepted d := by
  have hpredicates : d.restrictions.filterMap Fragment.predicate? =
      (numberFrom 1 (restrictionsOf ts)).map (leafOf rootAlias) := h.predicates_eq
  have hparameters : d.parameters.toList = named (accepted.filterMap Criterion.bound?) := by
    rw [h.parameters, hts.bound_eq]
  refine ⟨hparameters, Parameters.nextName_eq hparameters,
    ⟨restrictionsOf ts, hts.compared_eq, hpredicates, ?_⟩, ?_⟩
  · rw [hpredicates, List.map_map]
    apply List.map_congr_left
    intro p _
    exact p.2.text_predicate rootAlias p.1
  · have hnames := parameter_numberFrom rootAlias 1 (restrictionsOf ts)
    rw [hpredicates, List.filterMap_map, h.parameters, map_fst_named]
    simpa [Function.comp_def, Nat.add_comm] using hnames

/-- After every run of calls on a new draft, whichever of them fail, the parameters are numbered in
the order of acceptance, and later calls only write and bind behind what there is. -/
theorem numbers_run {entity : String} {schema : Schema} {settings : Settings} {d : Draft}
    (h : create entity schema settings = .ok d) (calls more : List Call) :
    Numbers d.rootAlias (accepted d calls) (d.run calls) ∧
      (d.run calls).restrictions <+: (d.run (calls ++ more)).restrictions ∧
      (d.run calls).parameters.toList <+: (d.run (calls ++ more)).parameters.toList := by
  obtain ⟨hnone, hnew⟩ := follows_create h
  have hrecord : (d.run calls).restrictionCriteria = accepted d calls := by
    obtain ⟨root, joins, joinCriteria, hints, -, rfl⟩ := create_eq_ok h
    rw [restrictionCriteria_run]
    rfl
  obtain ⟨ts, o, hspells, hfollows, -⟩ := hnew.run hnone calls
  obtain ⟨us, o', -, hfollows', hbefore⟩ := hfollows.run hspells more
  have hrun : d.run (calls ++ more) = (d.run calls).run more := List.foldl_append
  refine ⟨hfollows.numbers (hrecord ▸ hspells), hrun ▸ hbefore, ?_⟩
  rw [hrun, hfollows'.parameters, hfollows.parameters, restrictionsOf_append _ us, valuesOf_append]
  exact named_append _ _

/-- A run with a refused batch, whose first member would have bound a value, and a later call: the
test between the two comparisons has no parameter, and the membership names its own in front. -/
theorem numbers_run_refused : ∃ d,
    create "Address" (Schema.ofList [⟨"Address", []⟩]) ⟨.disabled, 3⟩ = .ok d ∧
    let city := Criterion.comparing "city" .equal (.string "Mesa")
    let street := (Criterion.testing "street" .isNull).withLogical .or
    let tags := (Criterion.comparing "tags" .memberOf (.boolean true)).withLogical .and
    let calls : List Call := [.add city, .addAll [tags, city], .addAll [street, tags]]
    let more : List Call := [.add ((Criterion.marker .opening).withLogical .or), .add city]
    accepted d calls = [city, street, tags] ∧
      (d.run calls).parameters.toList =
        [("param1", .string "Mesa"), ("param2", .boolean true)] ∧
      String.join ((d.run calls).restrictions.map Fragment.text) =
        " where address.city = :param1 or address.street is null and " ++
          ":param2 member of address.tags" ∧
      Numbers d.rootAlias (accepted d calls) (d.run calls) ∧
      (d.run calls).restrictions <+: (d.run (calls ++ more)).restrictions ∧
      (d.run calls).parameters.toList <+: (d.run (calls ++ more)).parameters.toList := by
  have h : create "Address" (Schema.ofList [⟨"Address", []⟩]) ⟨.disabled, 3⟩ = .ok _ := rfl
  exact ⟨_, h, rfl, rfl, by decide, numbers_run h _ _⟩

end EntityQuery.Draft

end QueryCriteria
