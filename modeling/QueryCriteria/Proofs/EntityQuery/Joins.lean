import QueryCriteria.Proofs.EntityQuery.Fetching
/-!
# Joins of a draft

The joins of a draft are those that it was made with and, behind them, those that calls have added,
which all start from the root. Over plain names they are well scoped, unless the root goes by the
numbered name of a relation (`wellScoped_run`). No two of them lead along one path in the same way,
except that a call may join once more what was joined from another relation when the draft was made
(`joinsPaths_run`).
-/

namespace QueryCriteria.EntityQuery

/-! ## Calls that add joins -/

/-- A join from the root that brings no name, as calls add them. -/
structure JoinClause.Bare (j : JoinClause) : Prop where
  owner : j.owner = none
  aliasName : j.aliasName = none

theorem JoinClause.Bare.eq {j : JoinClause} (h : j.Bare) :
    j = ⟨j.operator, none, j.operand, none⟩ := by
  obtain ⟨operator, owner, operand, aliasName⟩ := j
  obtain ⟨rfl, rfl⟩ := h
  rfl

namespace Draft

variable {d : Draft}

/-- A join that is pushed has another target than those before. -/
theorem pairwise_pushJoin {clause : JoinClause} {c : Criterion}
    (h : d.joins.Pairwise fun j k => ¬ j.sameTarget k) :
    (d.pushJoin clause c).joins.Pairwise fun j k => ¬ j.sameTarget k := by
  unfold pushJoin
  split
  · exact h
  · next hnew =>
    refine List.pairwise_append.2 ⟨h, List.pairwise_singleton _ _, ?_⟩
    intro j hj k hk hsame
    obtain rfl := List.mem_singleton.1 hk
    exact hnew (List.any_eq_true.2 ⟨j, hj, hsame⟩)

/-- Calls have put bare joins behind those that there were, and no two joins have the same
target. -/
structure AddsJoins (before : List JoinClause) (d : Draft) : Prop where
  split : ∃ added, d.joins = before ++ added ∧ ∀ j ∈ added, j.Bare
  distinct : d.joins.Pairwise fun j k => ¬ j.sameTarget k

theorem AddsJoins.addJoin {before : List JoinClause} {c : Criterion} {d' : Draft}
    (hd : AddsJoins before d) (h : d.addJoin c = .ok d') : AddsJoins before d' := by
  obtain ⟨operand, -, -, rfl⟩ := addJoin_cases h
  refine ⟨?_, pairwise_pushJoin hd.distinct⟩
  unfold pushJoin
  split
  · exact hd.split
  · obtain ⟨added, hsplit, hadded⟩ := hd.split
    refine ⟨added ++ [⟨c.join, none, operand, none⟩], ?_, ?_⟩
    · show d.joins ++ _ = _
      rw [hsplit, List.append_assoc]
    · exact List.forall_mem_append.2 ⟨hadded, List.forall_mem_singleton.2 ⟨rfl, rfl⟩⟩

theorem addsJoins_run (h : d.joins.Pairwise fun j k => ¬ j.sameTarget k) (calls : List Call) :
    AddsJoins d.joins (d.run calls) := by
  apply run_keeps (P := AddsJoins d.joins) _ _ _ ⟨⟨[], by simp, nofun⟩, h⟩
  · intro d₁ c d₂ hd hadd
    obtain ⟨_, _, _, -, rfl, -⟩ := add_cases hadd
    exact ⟨hd.split, hd.distinct⟩
  · intro d₁ c d₂ hd horder
    obtain ⟨_, -, -, rfl⟩ := addOrder_cases horder
    exact ⟨hd.split, hd.distinct⟩
  · intro d₁ c d₂ hd hjoin
    exact hd.addJoin hjoin

theorem pushJoin_eq_self_iff {clause : JoinClause} {c : Criterion} :
    d.pushJoin clause c = d ↔ ∃ j ∈ d.joins, j.sameTarget clause := by
  rw [← List.any_eq_true]
  unfold pushJoin
  split
  · next hany => simp [hany]
  · next hany =>
    refine ⟨fun heq => ?_, fun h => absurd h hany⟩
    have hlength := congrArg (fun d => d.joins.length) heq
    simp at hlength

end Draft

variable {schema : Schema} {root : Entity}

/-- Over plain names, the joins of a new draft are joins for paths: those of the plan, or none. -/
theorem exists_created {entity : String} (hplain : schema.PlainNames)
    (hblank : Text.isBlank entity = false) (hentity : schema.entity? entity = some root)
    (settings : Settings) : ∃ d parents names done, Draft.create entity schema settings = .ok d ∧
      d.rootAlias = root.aliasName ∧ d.joins = done.map (·.2) ∧
      Joined schema parents names done ∧
      (settings.strategy = .joinFetch →
        done.map (·.1) = (fetchPlan schema root settings.maxDepth).map (·.path)) ∧
      (settings.strategy ≠ .joinFetch → done = []) := by
  obtain ⟨strategy, maxDepth⟩ := settings
  cases strategy with
  | joinFetch =>
    obtain ⟨d, names, done, hcreate, halias, hjoins, hjoined, hpaths⟩ :=
      exists_joined hplain hblank hentity maxDepth
    exact ⟨d, _, names, done, hcreate, halias, hjoins, hjoined, fun _ => hpaths,
      fun h => absurd rfl h⟩
  | fetchHints =>
    exact ⟨_, [], .empty, [], Draft.create_eq hblank hentity _, rfl, rfl, .nil, nofun, fun _ => rfl⟩
  | disabled =>
    exact ⟨_, [], .empty, [], Draft.create_eq hblank hentity _, rfl, rfl, .nil, nofun, fun _ => rfl⟩

/-! ## Scope -/

/-- No name stands for two things, and a join starts from the root or from what a join in front of
it has named. -/
structure WellScoped (rootAlias : String) (joins : List JoinClause) : Prop where
  distinct : (rootAlias :: joins.filterMap (·.aliasName)).Nodup
  introduced : ∀ earlier j owner, earlier ++ [j] <+: joins → j.owner = some owner →
    owner ∈ earlier.filterMap (·.aliasName)

theorem WellScoped.append {rootAlias : String} {joins added : List JoinClause}
    (h : WellScoped rootAlias joins) (hadded : ∀ j ∈ added, j.Bare) :
    WellScoped rootAlias (joins ++ added) := by
  have hnone : added.filterMap (·.aliasName) = [] := by
    rw [List.filterMap_eq_nil_iff]
    exact fun j hj => (hadded j hj).aliasName
  constructor
  case distinct =>
    rw [List.filterMap_append, hnone, List.append_nil]
    exact h.distinct
  case introduced =>
    intro earlier j owner hpre howner
    rcases List.prefix_or_prefix_of_prefix hpre (List.prefix_append joins added) with hpre' | hpre'
    · exact h.introduced earlier j owner hpre' howner
    rcases List.prefix_concat_iff.1 hpre' with heq | hpre'
    · exact h.introduced earlier j owner (heq ▸ List.prefix_rfl) howner
    · -- The join stands among those that have been added, which have no owner.
      obtain ⟨more, rfl⟩ := hpre'
      rw [List.append_assoc] at hpre
      have hj : j ∈ added :=
        ((List.prefix_append_right_inj joins).1 hpre).subset (by simp)
      cases howner.symm.trans (hadded j hj).owner

theorem Joined.wellScoped {parents : List String} {names : OrderedMap String}
    {done : List (String × JoinClause)} (hplain : schema.PlainNames)
    (h : Joined schema parents names done) {rootAlias : String}
    (halias : ∀ name n, schema.Relates name → rootAlias ≠ numbered name n) :
    WellScoped rootAlias (done.map (·.2)) := by
  constructor
  case distinct =>
    rw [List.filterMap_map]
    refine List.nodup_cons.2 ⟨?_, h.nodup_aliasNames hplain⟩
    intro hmem
    obtain ⟨name, n, hname, heq⟩ := h.exists_numbered hmem
    exact halias name n hname heq
  case introduced =>
    intro earlier j owner hpre howner
    have hcount := h.count_owner hplain hpre howner
    exact List.count_pos_iff.1 (by omega)

/-- Over plain names, the joins of a draft are well scoped after every run of calls, where the root
does not go by the name of a relation with a number behind it. -/
theorem wellScoped_run {entity : String} (hplain : schema.PlainNames)
    (hblank : Text.isBlank entity = false) (hentity : schema.entity? entity = some root)
    (halias : ∀ name n, schema.Relates name → root.aliasName ≠ numbered name n)
    (maxDepth : UInt8) (calls : List Call) :
    ∃ d, Draft.create entity schema ⟨.joinFetch, maxDepth⟩ = .ok d ∧
      WellScoped (d.run calls).rootAlias (d.run calls).joins := by
  obtain ⟨d, parents, names, done, hcreate, hroot, hjoins, hjoined, -, -⟩ :=
    exists_created hplain hblank hentity ⟨.joinFetch, maxDepth⟩
  refine ⟨d, hcreate, ?_⟩
  obtain ⟨added, hsplit, hadded⟩ :=
    (d.addsJoins_run (hjoins ▸ hjoined.pairwise_not_sameTarget hplain) calls).split
  rw [Draft.rootAlias_run, hroot, hsplit, hjoins]
  exact (hjoined.wellScoped hplain halias).append hadded

/-- The name of a root may end in a digit. -/
theorem wellScoped_run_numberedRoot :
    let order : Entity := ⟨"Order2", [⟨"lines", "Line", .many⟩]⟩
    let schema := Schema.ofList [order, ⟨"Line", [⟨"product", "Product", .one⟩]⟩]
    let calls : List Call := [.addJoin (.joining "lines.product" .leftFetch)]
    schema.PlainNames ∧ Text.isBlank "Order2" = false ∧ schema.entity? "Order2" = some order ∧
      (∀ name n, schema.Relates name → order.aliasName ≠ numbered name n) ∧
      ∃ d, Draft.create "Order2" schema ⟨.joinFetch, 3⟩ = .ok d ∧
        WellScoped (d.run calls).rootAlias (d.run calls).joins := by
  intro order schema calls
  have hplain : schema.PlainNames := by decide
  have hblank : Text.isBlank "Order2" = false := by decide
  have hentity : schema.entity? "Order2" = some order := by decide
  have halias : ∀ name n, schema.Relates name → order.aliasName ≠ numbered name n := by
    have horder : order.aliasName = numbered "order" 2 := by decide
    intro name n hname heq
    obtain rfl := (numbered_inj (by decide) (hname.plain hplain) (horder.symm.trans heq)).1
    revert hname
    decide
  exact ⟨hplain, hblank, hentity, halias, wellScoped_run hplain hblank hentity halias 3 calls⟩

/-- A root may go by the name of its first join. Where an entity has two relations of one name, the
join of the second is dropped, and what is joined from its name is left without it. -/
theorem not_wellScoped :
    (let root : Entity := ⟨"Lines1", [⟨"lines", "Line", .many⟩]⟩
    let schema := Schema.ofList [root, ⟨"Line", [⟨"product", "Product", .one⟩]⟩]
    ∃ d, Draft.create "Lines1" schema ⟨.joinFetch, 3⟩ = .ok d ∧
      ¬ WellScoped d.rootAlias d.joins) ∧
    (let root : Entity := ⟨"Root", [⟨"a", "A", .one⟩, ⟨"a", "B", .one⟩]⟩
    let schema := Schema.ofList [root, ⟨"A", [⟨"x", "X", .one⟩]⟩, ⟨"B", [⟨"y", "Y", .one⟩]⟩]
    ∃ d, Draft.create "Root" schema ⟨.joinFetch, 3⟩ = .ok d ∧
      ¬ WellScoped d.rootAlias d.joins) := by
  constructor
  · intro root schema
    have hplan : fetchPlan schema root 3 = [⟨"lines", .many, 1⟩, ⟨"lines.product", .one, 2⟩] := by
      rw [fetchPlan, FetchPlan.relations, FetchPlan.walk_eq_walkWithin 5 (by decide)]
      decide
    have hblank : Text.isBlank "Lines1" = false := by decide
    have hentity : schema.entity? "Lines1" = some root := by decide
    obtain ⟨d, hcreate, halias, hjoins⟩ := Draft.exists_create_joinFetch hblank hentity 3
    refine ⟨d, hcreate, fun h => ?_⟩
    have hdistinct := h.distinct
    rw [halias, hjoins, hplan] at hdistinct
    revert hdistinct
    decide
  · intro root schema
    have hplan : fetchPlan schema root 3 = [⟨"a", .one, 1⟩, ⟨"a.x", .one, 2⟩, ⟨"a", .one, 1⟩,
        ⟨"a.y", .one, 2⟩] := by
      rw [fetchPlan, FetchPlan.relations, FetchPlan.walk_eq_walkWithin 7 (by decide)]
      decide
    have hblank : Text.isBlank "Root" = false := by decide
    have hentity : schema.entity? "Root" = some root := by decide
    obtain ⟨d, hcreate, halias, hjoins⟩ := Draft.exists_create_joinFetch hblank hentity 3
    refine ⟨d, hcreate, fun h => ?_⟩
    have hmem := h.introduced
      [⟨.leftFetch, none, "a", some "a1"⟩, ⟨.leftFetch, some "a1", "x", none⟩]
      ⟨.leftFetch, some "a2", "y", none⟩ "a2"
    rw [hjoins, hplan] at hmem
    revert hmem
    decide

/-! ## Paths -/

/-- Every join leads along one path. Two that lead along the same path in the same way are one of
those made with the draft, from what another one has named, and a later one from the root. -/
structure JoinsPaths (made joins : List JoinClause) : Prop where
  path : ∀ j ∈ joins, ∃! path, Navigates joins j path
  twice : joins.Pairwise fun j k => ∀ path, j.operator = k.operator →
    Navigates joins j path → Navigates joins k path →
      j ∈ made ∧ j.owner.isSome ∧ k = ⟨.leftFetch, none, path, none⟩

namespace Joined

variable {parents : List String} {names : OrderedMap String}
  {done : List (String × JoinClause)} {added : List JoinClause}

/-- With joins from the root behind them, the joins of paths lead along these. -/
theorem navigates_append_iff (hplain : schema.PlainNames) (h : Joined schema parents names done)
    (hadded : ∀ j ∈ added, j.Bare) {x : String × JoinClause} (hx : x ∈ done) {path : String} :
    Navigates (done.map (·.2) ++ added) x.2 path ↔ path = x.1 := by
  refine h.navigates_iff hplain ?_ ?_ hx
  · intro y hy
    exact List.mem_append_left _ (List.mem_map_of_mem hy)
  · intro k hk hname
    rcases List.mem_append.1 hk with hk | hk
    · obtain ⟨y, hy, rfl⟩ := List.mem_map.1 hk
      exact ⟨y.1, hy⟩
    · rw [(hadded k hk).aliasName] at hname
      cases hname

theorem existsUnique_path (hplain : schema.PlainNames) (h : Joined schema parents names done)
    (hadded : ∀ j ∈ added, j.Bare) :
    ∀ j ∈ done.map (·.2) ++ added, ∃! path, Navigates (done.map (·.2) ++ added) j path := by
  intro j hj
  rcases List.mem_append.1 hj with hj | hj
  · obtain ⟨x, hx, rfl⟩ := List.mem_map.1 hj
    exact ⟨x.1, (h.navigates_append_iff hplain hadded hx).2 rfl,
      fun path => (h.navigates_append_iff hplain hadded hx).1⟩
  · have hroot := (hadded j hj).owner
    exact ⟨j.operand, (navigates_root_iff hroot).2 rfl, fun path => (navigates_root_iff hroot).1⟩

/-- Two joins lead along one path in the same way only when the first of them is for a planned path
of several steps, and the second one is for the same path from the root. -/
theorem pairwise_path (hplain : schema.PlainNames) (h : Joined schema parents names done)
    (hadded : ∀ j ∈ added, j.Bare)
    (hdistinct : (done.map (·.2) ++ added).Pairwise fun j k => ¬ j.sameTarget k) :
    (done.map (·.2) ++ added).Pairwise fun j k => ∀ path, j.operator = k.operator →
      Navigates (done.map (·.2) ++ added) j path → Navigates (done.map (·.2) ++ added) k path →
        j ∈ done.map (·.2) ∧ j.owner.isSome ∧ k = ⟨.leftFetch, none, path, none⟩ := by
  obtain ⟨-, hrest, hcross⟩ := List.pairwise_append.1 hdistinct
  refine List.pairwise_append.2 ⟨?_, ?_, ?_⟩
  · -- Planned paths are distinct.
    refine List.pairwise_map.2 ((List.pairwise_map.1 h.distinct).imp_of_mem ?_)
    intro x y hx hy hne path _ hxpath hypath
    have hxpath := (h.navigates_append_iff hplain hadded hx).1 hxpath
    have hypath := (h.navigates_append_iff hplain hadded hy).1 hypath
    exact absurd (hxpath.symm.trans hypath) hne
  · -- Joins from the root for one path have the same target.
    refine hrest.imp_of_mem ?_
    intro j k hj hk hne path hoperator hjpath hkpath
    have hj := (hadded j hj).owner
    have hk := (hadded k hk).owner
    have hjpath := (navigates_root_iff hj).1 hjpath
    have hkpath := (navigates_root_iff hk).1 hkpath
    exact absurd (JoinClause.sameTarget_iff.2
      ⟨hoperator, hj.trans hk.symm, hjpath.symm.trans hkpath⟩) hne
  · -- Only the first of the two can have an owner, and does if their targets differ.
    intro j hj k hk path hoperator hjpath hkpath
    have hbare := hadded k hk
    have hkpath := (navigates_root_iff hbare.owner).1 hkpath
    refine ⟨hj, ?_, ?_⟩
    · rw [Option.isSome_iff_ne_none]
      intro hroot
      have hjpath := (navigates_root_iff hroot).1 hjpath
      exact hcross j hj k hk (JoinClause.sameTarget_iff.2
        ⟨hoperator, hroot.trans hbare.owner.symm, hjpath.symm.trans hkpath⟩)
    · obtain ⟨x, hx, rfl⟩ := List.mem_map.1 hj
      rw [hbare.eq, ← hoperator, h.operator x hx, hkpath]

/-- With joins from the root behind them, of which none has the same target as another, only the
joins of paths of several steps can be repeated. -/
theorem joinsPaths (hplain : schema.PlainNames) (h : Joined schema parents names done)
    (hadded : ∀ j ∈ added, j.Bare)
    (hdistinct : (done.map (·.2) ++ added).Pairwise fun j k => ¬ j.sameTarget k) :
    JoinsPaths (done.map (·.2)) (done.map (·.2) ++ added) where
  path := h.existsUnique_path hplain hadded
  twice := h.pairwise_path hplain hadded hdistinct

/-- A join from the root has the same target as the join of a path of one step, and as itself. -/
theorem exists_sameTarget_iff (hplain : schema.PlainNames) (h : Joined schema parents names done)
    (hadded : ∀ j ∈ added, j.Bare) {path : String} (hpath : path ∈ done.map (·.1)) :
    (∃ j ∈ done.map (·.2) ++ added, j.sameTarget ⟨.leftFetch, none, path, none⟩) ↔
      '.' ∉ path.toList ∨ ⟨.leftFetch, none, path, none⟩ ∈ done.map (·.2) ++ added := by
  constructor
  · rintro ⟨j, hj, hsame⟩
    obtain ⟨hoperator, -, hoperand⟩ :
        j.operator = .leftFetch ∧ j.owner = none ∧ j.operand = path :=
      JoinClause.sameTarget_iff.1 hsame
    rcases List.mem_append.1 hj with hj' | hj'
    · obtain ⟨x, hx, rfl⟩ := List.mem_map.1 hj'
      exact .inl (hoperand ▸ ((h.operand x hx).plain hplain).1)
    · rw [(hadded j hj').eq, hoperator, hoperand] at hj
      exact .inr hj
  · rintro (hundotted | hmem)
    · obtain ⟨x, hx, rfl⟩ := List.mem_map.1 hpath
      rcases h.sourced_of_mem hx with ⟨hroot, hp⟩ | ⟨k, -, name, -, -, hp⟩
      · exact ⟨x.2, List.mem_append_left _ (List.mem_map_of_mem hx),
          JoinClause.sameTarget_iff.2 ⟨h.operator x hx, hroot, hp.symm⟩⟩
      · rw [hp] at hundotted
        simp at hundotted
    · exact ⟨_, hmem, JoinClause.sameTarget_iff.2 ⟨rfl, rfl, rfl⟩⟩

end Joined

/-- To join a path is to put a join from the root behind the others; a blank path is none. -/
theorem Draft.step_joining (d : Draft) (path : String) :
    d.step (.addJoin (.joining path .leftFetch)) =
      if Text.isBlank path then d
      else d.pushJoin ⟨.leftFetch, none, path, none⟩ (.joining path .leftFetch) := by
  have hadd : d.addJoin (.joining path .leftFetch) =
      if Text.isBlank path then .error (.missingOperand "join")
      else .ok (d.pushJoin ⟨.leftFetch, none, path, none⟩ (.joining path .leftFetch)) := by
    simp only [Draft.addJoin, Criterion.requireOperand, Criterion.joining]
    split <;> rfl
  rw [step, after, perform, hadd]
  cases Text.isBlank path <;> rfl

/-- It changes nothing exactly when there is a join with the same target, or no path. -/
theorem Draft.step_joining_eq_self_iff {d : Draft} {path : String} :
    d.step (.addJoin (.joining path .leftFetch)) = d ↔
      Text.isBlank path ∨ ∃ j ∈ d.joins, j.sameTarget ⟨.leftFetch, none, path, none⟩ := by
  rw [← pushJoin_eq_self_iff (c := .joining path .leftFetch), step_joining]
  split <;> simp [*]

/-- Over plain names, the joins of a draft lead along one path each after every run of calls, and
none of those that the draft was made with is repeated but by a join from the root, for a path of
several steps. To join a planned path again changes nothing exactly when it is a relation of the
root, or has been joined again before. -/
theorem joinsPaths_run {entity : String} (hplain : schema.PlainNames)
    (hblank : Text.isBlank entity = false) (hentity : schema.entity? entity = some root)
    (settings : Settings) (calls : List Call) :
    ∃ d, Draft.create entity schema settings = .ok d ∧
      (settings.strategy ≠ .joinFetch → d.joins = []) ∧
      JoinsPaths d.joins (d.run calls).joins ∧
      (settings.strategy = .joinFetch → ∀ fetch ∈ fetchPlan schema root settings.maxDepth,
        ((d.run calls).step (.addJoin (.joining fetch.path .leftFetch)) = d.run calls ↔
          '.' ∉ fetch.path.toList ∨
            ⟨.leftFetch, none, fetch.path, none⟩ ∈ (d.run calls).joins)) := by
  obtain ⟨d, parents, names, done, hcreate, -, hjoins, hjoined, hplanned, hnone⟩ :=
    exists_created hplain hblank hentity settings
  obtain ⟨⟨added, hsplit, hadded⟩, hdistinct⟩ :=
    d.addsJoins_run (hjoins ▸ hjoined.pairwise_not_sameTarget hplain) calls
  rw [hjoins] at hsplit
  rw [hsplit] at hdistinct
  refine ⟨d, hcreate, ?_, ?_, ?_⟩
  · intro hstrategy
    rw [hjoins, hnone hstrategy]
    rfl
  · rw [hjoins, hsplit]
    exact hjoined.joinsPaths hplain hadded hdistinct
  · intro hstrategy fetch hfetch
    have hpath : fetch.path ∈ done.map (·.1) := by
      rw [hplanned hstrategy]
      exact List.mem_map_of_mem hfetch
    have hblank : Text.isBlank fetch.path → '.' ∉ fetch.path.toList := by
      intro hwhite hdot
      exact absurd (List.all_eq_true.1 hwhite '.' hdot) (by decide)
    rw [Draft.step_joining_eq_self_iff, hsplit, hjoined.exists_sameTarget_iff hplain hadded hpath]
    exact or_iff_right_of_imp fun hwhite => .inl (hblank hwhite)

/-- A relation of the root is not joined again; a relation behind it is. -/
theorem joinsPaths_run_nested :
    let order : Entity := ⟨"Order", [⟨"lines", "Line", .many⟩]⟩
    let schema := Schema.ofList [order, ⟨"Line", [⟨"product", "Product", .one⟩]⟩]
    let calls : List Call := [.addJoin (.joining "lines.product" .leftFetch)]
    schema.PlainNames ∧ Text.isBlank "Order" = false ∧ schema.entity? "Order" = some order ∧
      ∃ d, Draft.create "Order" schema ⟨.joinFetch, 3⟩ = .ok d ∧
        JoinsPaths d.joins (d.run calls).joins ∧
        (d.run calls).step (.addJoin (.joining "lines" .leftFetch)) = d.run calls := by
  intro order schema calls
  have hplain : schema.PlainNames := by decide
  have hblank : Text.isBlank "Order" = false := by decide
  have hentity : schema.entity? "Order" = some order := by decide
  obtain ⟨d, hcreate, -, hpaths, hagain⟩ :=
    joinsPaths_run hplain hblank hentity ⟨.joinFetch, 3⟩ calls
  have hplan : fetchPlan schema order 3 = [⟨"lines", .many, 1⟩, ⟨"lines.product", .one, 2⟩] := by
    rw [fetchPlan, FetchPlan.relations, FetchPlan.walk_eq_walkWithin 5 (by decide)]
    decide
  have hlines := hagain rfl ⟨"lines", .many, 1⟩ (hplan ▸ .head _)
  exact ⟨hplain, hblank, hentity, d, hcreate, hpaths, hlines.2 (.inl (by decide))⟩

/-- What is planned behind a relation of the root is joined twice when a call joins it too. -/
theorem joins_twice :
    let order : Entity := ⟨"Order", [⟨"lines", "Line", .many⟩]⟩
    let schema := Schema.ofList [order, ⟨"Line", [⟨"product", "Product", .one⟩]⟩]
    let again : Call := .addJoin (.joining "lines.product" .leftFetch)
    schema.PlainNames ∧ "lines.product" ∈ (fetchPlan schema order 3).map (·.path) ∧
      ∃ d, Draft.create "Order" schema ⟨.joinFetch, 3⟩ = .ok d ∧ d.step again ≠ d ∧
        ¬ (d.run [again]).joins.Pairwise (fun j k => ∀ path, j.operator = k.operator →
          Navigates (d.run [again]).joins j path → ¬ Navigates (d.run [again]).joins k path) := by
  intro order schema again
  have hplan : fetchPlan schema order 3 = [⟨"lines", .many, 1⟩, ⟨"lines.product", .one, 2⟩] := by
    rw [fetchPlan, FetchPlan.relations, FetchPlan.walk_eq_walkWithin 5 (by decide)]
    decide
  have hblank : Text.isBlank "Order" = false := by decide
  have hentity : schema.entity? "Order" = some order := by decide
  obtain ⟨d, hcreate, -, hjoins⟩ := Draft.exists_create_joinFetch hblank hentity 3
  have hmade : d.joins =
      [⟨.leftFetch, none, "lines", some "lines1"⟩, ⟨.leftFetch, some "lines1", "product", none⟩] := by
    rw [hjoins, hplan]
    decide
  have hagain : (d.run [again]).joins = d.joins ++ [⟨.leftFetch, none, "lines.product", none⟩] := by
    show (d.step again).joins = _
    rw [Draft.step_joining, Draft.pushJoin, hmade]
    rfl
  refine ⟨by decide, by rw [hplan]; decide, d, hcreate, ?_, ?_⟩
  · rw [ne_eq, Draft.step_joining_eq_self_iff, hmade]
    decide
  · rw [hagain, hmade]
    intro h
    have hproduct := (List.pairwise_cons.1 (List.pairwise_cons.1 h).2).1 _ (.head _)
      "lines.product" rfl
    exact hproduct (.owned rfl (.head _) rfl (.root rfl)) (.root rfl)

end QueryCriteria.EntityQuery
