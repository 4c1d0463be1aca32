import QueryCriteria.Proofs.EntityQuery.Joins
import QueryCriteria.Proofs.EntityQuery.Strategy
import QueryCriteria.Proofs.Prefix
/-!
# The record of the joins

Behind the joins that a draft was made with stands one for every explicit join that calls have
brought, each once and none that was fetched from the root already; the criteria are recorded beside
the joins. A draft with joins asks for distinct rows, and its text says so (`joins_recorded`).
-/

namespace QueryCriteria.EntityQuery

/-! ## Records of joins -/

/-- The join that a criterion asks for: from the root, and without a name of its own. -/
def explicitJoin (c : Criterion) : JoinClause := ⟨c.join, none, c.operand.getD "", none⟩

/-- A criterion is the record of a join: it has the operator, and the path of the join as operand,
which goes on from another path when the join has an owner. -/
structure Records (c : Criterion) (j : JoinClause) : Prop where
  role : c.role = .ok .join
  operator : c.join = j.operator
  root : j.owner = none → c.operand = some j.operand
  owned : j.owner.isSome → ∃ parent, c.operand = some (parent ++ "." ++ j.operand)

/-- The join of a planned path is recorded by the path. -/
theorem records_joinSource (names : OrderedMap String) (path : String) (aliasName : Option String) :
    Records (.joining path .leftFetch)
      ⟨.leftFetch, (joinSource names path).1, (joinSource names path).2, aliasName⟩ := by
  have hroot : Records (.joining path .leftFetch) ⟨.leftFetch, none, path, aliasName⟩ :=
    ⟨rfl, rfl, fun _ => rfl, nofun⟩
  unfold joinSource
  split
  · next parent relation hsplit =>
    split
    · exact ⟨rfl, rfl, nofun, fun _ => ⟨parent, congrArg some (eq_of_splitPath hsplit)⟩⟩
    · exact hroot
  · exact hroot

theorem records_fetchClauses (parents : List String) (names : OrderedMap String)
    (planned : List PlannedFetch) : ∀ x ∈ fetchClauses parents names planned, Records x.2 x.1 := by
  induction planned generalizing names with
  | nil => simp [fetchClauses]
  | cons fetch planned ih =>
    exact List.forall_mem_cons.2 ⟨records_joinSource names fetch.path _, ih _⟩

namespace Draft

variable {made d d' : Draft} {c : Criterion}

/-- The joins and their criteria stand side by side, and no two joins have the same target. -/
structure Parallel (d : Draft) : Prop where
  records : List.Forall₂ Records d.joinCriteria d.joins
  distinct : d.joins.Pairwise fun j k => ¬ j.sameTarget k

theorem Parallel.pushJoin {clause : JoinClause} (h : Parallel d) (hc : Records c clause) :
    Parallel (d.pushJoin clause c) := by
  refine ⟨?_, pairwise_pushJoin h.distinct⟩
  unfold Draft.pushJoin
  split
  · exact h.records
  · exact List.rel_append h.records (.cons hc .nil)

theorem parallel_create {entity : String} {schema : Schema} {settings : Settings}
    (h : create entity schema settings = .ok d) : Parallel d := by
  have hstart (name rootAlias : String) : Parallel (start name rootAlias) := ⟨.nil, .nil⟩
  unfold create at h
  split at h
  · cases h
  · split at h
    · cases h
    · next root _ =>
      cases h
      unfold autoFetch
      cases settings.strategy with
      | joinFetch =>
        unfold pushFetchJoins
        refine List.foldlRecOn (motive := Parallel) _ _ (hstart _ _) ?_
        rintro d hd ⟨clause, c⟩ hx
        exact hd.pushJoin (records_fetchClauses _ _ _ _ hx)
      | fetchHints => exact ⟨.nil, .nil⟩
      | disabled => exact hstart _ _

/-- A join that is taken is put behind the others as the criterion asks for it. -/
theorem addJoin_eq (h : d.addJoin c = .ok d') :
    d' = d.pushJoin (explicitJoin c) c ∧ Records c (explicitJoin c) ∧
      ∀ d : Draft, d.addJoin c = .ok (d.pushJoin (explicitJoin c) c) := by
  obtain ⟨operand, hrole, hoperand, rfl⟩ := addJoin_cases h
  have hc : c.operand = some operand := by
    unfold Criterion.requireOperand at hoperand
    split at hoperand
    · next operand' heq =>
      split at hoperand
      · cases hoperand
      · cases hoperand
        exact heq
    · cases hoperand
  have hclause : explicitJoin c = ⟨c.join, none, operand, none⟩ := by rw [explicitJoin, hc]; rfl
  rw [hclause]
  refine ⟨rfl, ⟨hrole, rfl, fun _ => hc, nofun⟩, fun d => ?_⟩
  simp [addJoin, hrole, hoperand]

theorem parallel_run (h : Parallel d) (calls : List Call) : Parallel (d.run calls) := by
  apply run_keeps _ _ _ h
  · intro d₁ c d₂ hd hadd
    obtain ⟨_, _, _, -, rfl, -⟩ := add_cases hadd
    exact ⟨hd.records, hd.distinct⟩
  · intro d₁ c d₂ hd horder
    obtain ⟨_, -, -, rfl⟩ := addOrder_cases horder
    exact ⟨hd.records, hd.distinct⟩
  · intro d₁ c d₂ hd hjoin
    obtain ⟨rfl, hc, -⟩ := addJoin_eq hjoin
    exact hd.pushJoin hc

/-! ## Explicit joins -/

/-- Behind the joins of the draft as it was made stand those of the criteria that have been kept of
the ones that were taken: the first for each join, unless that was fetched from the root. -/
structure Keeps (made : Draft) (taken kept : List Criterion) (d : Draft) : Prop where
  sublist : kept.Sublist taken
  clauses : kept.map explicitJoin = (taken.map explicitJoin).eraseDups.filter fun k =>
    !made.joins.any (·.sameTarget k)
  joins : d.joins = made.joins ++ kept.map explicitJoin
  criteria : d.joinCriteria = made.joinCriteria ++ kept
  again : ∀ c ∈ taken, ∀ d' : Draft, d'.addJoin c = .ok (d'.pushJoin (explicitJoin c) c)

variable {taken kept : List Criterion}

theorem explicitJoin_sameTarget {c c' : Criterion} :
    (explicitJoin c).sameTarget (explicitJoin c') ↔ explicitJoin c = explicitJoin c' := by
  simp [JoinClause.sameTarget_iff, explicitJoin]

/-- A join is there exactly when it was fetched from the root or has been taken. -/
theorem Keeps.any_iff (h : Keeps made taken kept d) (c : Criterion) :
    d.joins.any (·.sameTarget (explicitJoin c)) ↔
      made.joins.any (·.sameTarget (explicitJoin c)) ∨ explicitJoin c ∈ taken.map explicitJoin := by
  have hkept : (kept.map explicitJoin).any (·.sameTarget (explicitJoin c)) ↔
      explicitJoin c ∈ kept.map explicitJoin := by
    simp [explicitJoin_sameTarget]
  rw [h.joins, List.any_append, Bool.or_eq_true, hkept, h.clauses, List.mem_filter,
    List.mem_eraseDups]
  by_cases hmade : made.joins.any (·.sameTarget (explicitJoin c)) <;> simp [hmade]

/-- One more join is kept unless it is there. -/
theorem Keeps.addJoin (h : Keeps made taken kept d) (hadd : d.addJoin c = .ok d') :
    ∃ kept', Keeps made (taken ++ [c]) kept' d' := by
  obtain ⟨rfl, -, hc⟩ := addJoin_eq hadd
  have hagain := List.forall_mem_append.2 ⟨h.again, List.forall_mem_singleton.2 hc⟩
  have hany := h.any_iff c
  have hclauses : ((taken ++ [c]).map explicitJoin).eraseDups =
      if explicitJoin c ∈ taken.map explicitJoin then (taken.map explicitJoin).eraseDups
      else (taken.map explicitJoin).eraseDups ++ [explicitJoin c] := by
    rw [List.map_append, List.map_singleton, OrderedMap.eraseDups_concat]
  unfold pushJoin
  split
  · next hthere =>
    refine ⟨kept, h.sublist.trans (List.sublist_append_left _ _), ?_, h.joins, h.criteria, hagain⟩
    rw [hclauses, h.clauses]
    split
    · rfl
    · next hnew =>
      have hmade := (hany.1 hthere).resolve_right hnew
      simp [List.filter_append, hmade]
  · next hmissing =>
    obtain ⟨hmade, hnew⟩ := not_or.1 (mt hany.2 hmissing)
    refine ⟨kept ++ [c], h.sublist.append (.refl _), ?_, ?_, ?_, hagain⟩
    · rw [hclauses, if_neg hnew, List.filter_append, List.map_append, h.clauses]
      simp [hmade]
    · show d.joins ++ _ = _
      rw [h.joins, List.append_assoc, List.map_append]
      rfl
    · show d.joinCriteria ++ _ = _
      rw [h.criteria, List.append_assoc]

theorem Keeps.addJoins (h : Keeps made taken kept d) {cs : List Criterion}
    (hadd : d.addJoins cs = .ok d') : ∃ kept', Keeps made (taken ++ cs) kept' d' := by
  induction cs generalizing d taken kept with
  | nil =>
    cases hadd
    exact ⟨kept, by rwa [List.append_nil]⟩
  | cons c cs ih =>
    obtain ⟨d₁, h₁, hadd⟩ := bind_eq_ok_iff.1 hadd
    obtain ⟨kept₁, hkept₁⟩ := h.addJoin h₁
    rw [List.append_cons]
    exact ih hkept₁ hadd

theorem Keeps.add (h : Keeps made taken kept d) (hadd : d.add c = .ok d') :
    Keeps made taken kept d' := by
  obtain ⟨_, _, _, -, rfl, -⟩ := add_cases hadd
  exact ⟨h.sublist, h.clauses, h.joins, h.criteria, h.again⟩

theorem Keeps.addOrder (h : Keeps made taken kept d) (horder : d.addOrder c = .ok d') :
    Keeps made taken kept d' := by
  obtain ⟨_, -, -, rfl⟩ := addOrder_cases horder
  exact ⟨h.sublist, h.clauses, h.joins, h.criteria, h.again⟩

theorem Keeps.perform (h : Keeps made taken kept d) {call : Call}
    (hcall : d.perform call = .ok d') : ∃ kept', Keeps made (taken ++ call.joins) kept' d' := by
  have hnone {d' : Draft} (h : Keeps made taken kept d') :
      ∃ kept', Keeps made (taken ++ []) kept' d' := ⟨kept, by rwa [List.append_nil]⟩
  cases call with
  | add c => exact hnone (h.add hcall)
  | addAll cs => exact hnone (foldlM_ok_invariant (fun _ _ _ => Keeps.add) h hcall)
  | addOrder c => exact hnone (h.addOrder hcall)
  | addOrders cs => exact hnone (foldlM_ok_invariant (fun _ _ _ => Keeps.addOrder) h hcall)
  | addJoin c => exact h.addJoin hcall
  | addJoins cs => exact h.addJoins hcall
  | apply set =>
    obtain ⟨d₁, h₁, hcall⟩ := bind_eq_ok_iff.1 hcall
    obtain ⟨d₂, h₂, hcall⟩ := bind_eq_ok_iff.1 hcall
    obtain ⟨kept', hkept'⟩ := h.addJoins h₁
    have hkept₂ := foldlM_ok_invariant (fun _ _ _ => Keeps.add) hkept' h₂
    exact ⟨kept', foldlM_ok_invariant (fun _ _ _ => Keeps.addOrder) hkept₂ hcall⟩

theorem Keeps.run (h : Keeps made taken kept d) (calls : List Call) :
    ∃ kept', Keeps made (taken ++ joinsTaken d calls) kept' (d.run calls) :=
  brought_induct (P := fun done d' => ∃ kept', Keeps made done kept' d')
    (fun _ _ _ _ ⟨_, hkept⟩ hcall => hkept.perform hcall) ⟨kept, h⟩ calls

/-! ## The word for distinct rows -/

/-- The text asks for distinct rows exactly when there are joins. This can be told from its
beginning, whatever the name of the root is: the word itself, for one. -/
theorem prefix_text_iff (d : Draft) :
    ("select distinct " ++ d.rootAlias ++ " from ").toList <+: d.text.toList ↔ d.joins ≠ [] := by
  obtain ⟨rest, htext⟩ : ∃ rest, d.text.toList = "select ".toList ++
      ((if d.isDistinct then "distinct ".toList else []) ++
        ((d.rootAlias.toList ++ " from ".toList) ++ rest)) := by
    refine ⟨(d.entity ++ " " ++ d.rootAlias ++
      String.join (d.joins.map (JoinClause.text d.rootAlias)) ++
      String.join (d.restrictions.map Fragment.text) ++ ordersText d.rootAlias d.orders).toList, ?_⟩
    unfold text
    cases d.isDistinct <;> simp
  have hfront : ("select distinct " ++ d.rootAlias ++ " from ").toList =
      "select ".toList ++ ("distinct ".toList ++ (d.rootAlias.toList ++ " from ".toList)) := by
    simp [String.toList_append]
  rw [htext, hfront, List.prefix_append_right_inj]
  cases hjoins : d.joins with
  | cons j joins =>
    have hdistinct : d.isDistinct = true := by rw [isDistinct, hjoins]; rfl
    rw [hdistinct, if_pos rfl, List.prefix_append_right_inj]
    simp
  | nil =>
    have hdistinct : d.isDistinct = false := by rw [isDistinct, hjoins]; rfl
    rw [hdistinct, if_neg Bool.false_ne_true, List.nil_append]
    refine iff_of_false (fun h => ?_) (fun h => h rfl)
    -- The name and the word behind it would be made of the characters of the word in front.
    have hself := subset_of_prefix_append (by decide)
      (List.prefix_of_prefix_length_le (List.prefix_append _ rest) h (by simp))
    have hf := hself (List.mem_append_right _ (by decide : 'f' ∈ " from ".toList))
    revert hf
    decide

/-! ## Runs -/

theorem Keeps.addJoin_eq_self (h : Keeps made taken kept d) (hc : c ∈ taken) :
    d.addJoin c = .ok d := by
  have hany := (h.any_iff c).2 (.inr (List.mem_map_of_mem hc))
  rw [h.again c hc d, pushJoin, if_pos hany]

theorem Keeps.addJoins_eq_self (h : Keeps made taken kept d) {cs : List Criterion}
    (hcs : cs ⊆ taken) : d.addJoins cs = .ok d := by
  induction cs with
  | nil => rfl
  | cons c cs ih =>
    obtain ⟨hc, hcs⟩ := List.cons_subset.1 hcs
    rw [Draft.addJoins, List.foldlM_cons, h.addJoin_eq_self hc]
    exact ih hcs

theorem Parallel.hasJoins_iff (h : Parallel d) : d.hasJoins = true ↔ d.joins ≠ [] := by
  have hlength := h.records.length_eq
  rw [← List.length_pos_iff, ← hlength, List.length_pos_iff]
  simp [hasJoins]

/-- After every run of calls on a new draft, its joins are those that it was made with and, behind
them, one for every join that the calls have taken, in order, without repetitions and without those
that are fetched from the root already. Their criteria are recorded beside them, and no two have the
same operator, owner and operand. The draft asks for distinct rows, and its text says so, exactly
when there are joins. To add a join again changes nothing. -/
theorem joins_recorded {entity : String} {schema : Schema} {settings : Settings}
    (h : create entity schema settings = .ok d) (calls : List Call) :
    (∃ kept, Keeps d (joinsTaken d calls) kept (d.run calls)) ∧ Parallel (d.run calls) ∧
    ((d.run calls).isDistinct = true ↔ (d.run calls).joins ≠ []) ∧
    ((d.run calls).hasJoins = true ↔ (d.run calls).joins ≠ []) ∧
    (("select distinct " ++ d.rootAlias ++ " from ").toList <+: (d.run calls).text.toList ↔
      (d.run calls).joins ≠ []) ∧
    (∀ c ∈ joinsTaken d calls, (d.run calls).addJoin c = .ok (d.run calls)) ∧
    ∀ cs ⊆ joinsTaken d calls, (d.run calls).addJoins cs = .ok (d.run calls) := by
  have hmade : Keeps d [] [] d := ⟨.slnil, by simp, by simp, by simp, by simp⟩
  obtain ⟨kept, hkept⟩ := hmade.run calls
  have hparallel := parallel_run (parallel_create h) calls
  refine ⟨⟨kept, hkept⟩, hparallel, by simp [isDistinct], hparallel.hasJoins_iff, ?_,
    fun _ => hkept.addJoin_eq_self, fun _ => hkept.addJoins_eq_self⟩
  rw [← rootAlias_run d calls]
  exact prefix_text_iff _

/-- A batch brings a join that is fetched already and, twice, one that is not; another batch
fails. -/
theorem joins_recorded_repeated :
    let order : Entity := ⟨"Order", [⟨"lines", "Line", .many⟩]⟩
    let schema := Schema.ofList [order]
    let lines := Criterion.joining "lines" .leftFetch
    let customer := Criterion.joining "customer" .inner
    let calls : List Call := [.addJoins [customer, lines, customer],
      .addJoins [.joining "city" .left, .joining " " .left], .addJoin customer]
    ∃ d, create "Order" schema ⟨.joinFetch, 3⟩ = .ok d ∧
      joinsTaken d calls = [customer, lines, customer, customer] ∧
      (d.run calls).joins =
        [⟨.leftFetch, none, "lines", none⟩, ⟨.inner, none, "customer", none⟩] ∧
      (d.run calls).joinCriteria = [lines, customer] ∧
      (∃ kept, Keeps d (joinsTaken d calls) kept (d.run calls)) ∧ Parallel (d.run calls) ∧
      (d.run calls).text = "select distinct order from Order order" ++
        " left join fetch order.lines join order.customer" ∧
      ("select distinct " ++ d.rootAlias ++ " from ").toList <+: (d.run calls).text.toList ∧
      (d.run calls).addJoin lines = .ok (d.run calls) := by
  intro order schema lines customer calls
  have hplan : fetchPlan schema order 3 = [⟨"lines", .many, 1⟩] := by
    rw [fetchPlan, FetchPlan.relations, FetchPlan.walk_eq_walkWithin 5 (by decide)]
    decide
  have hblank : Text.isBlank "Order" = false := by decide
  have hentity : schema.entity? "Order" = some order := by decide
  obtain ⟨d, hcreate, htaken, hjoins, hcriteria, htext⟩ : ∃ d,
      create "Order" schema ⟨.joinFetch, 3⟩ = .ok d ∧
      joinsTaken d calls = [customer, lines, customer, customer] ∧
      (d.run calls).joins =
        [⟨.leftFetch, none, "lines", none⟩, ⟨.inner, none, "customer", none⟩] ∧
      (d.run calls).joinCriteria = [lines, customer] ∧
      (d.run calls).text = "select distinct order from Order order" ++
        " left join fetch order.lines join order.customer" := by
    have hcreate := create_eq hblank hentity ⟨.joinFetch, 3⟩
    simp only [autoFetch, hplan] at hcreate
    exact ⟨_, hcreate, rfl, by decide, rfl, by decide⟩
  obtain ⟨hkept, hparallel, -, -, hprefix, hagain, -⟩ := joins_recorded hcreate calls
  refine ⟨d, hcreate, htaken, hjoins, hcriteria, hkept, hparallel, htext, hprefix.2 ?_, ?_⟩
  · rw [hjoins]
    exact List.cons_ne_nil _ _
  · exact hagain lines (htaken ▸ .tail _ (.head _))

end Draft

end QueryCriteria.EntityQuery
