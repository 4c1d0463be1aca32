import Mathlib.Data.List.Forall2
import Mathlib.Data.List.Nodup
import QueryCriteria.Proofs.EntityQuery.Draft
import QueryCriteria.Proofs.EntityQuery.Naming
/-!
# Fetching by joins and by hints

Over plain names, a new draft has one join for every planned fetch and in the same order; each joins
one relation, of the root or of what one join in front of it has named, and leads along the planned
path (`Joined`). With hints, the same paths are told from the name of the root on
(`fetches_planned`).
-/

namespace QueryCriteria.EntityQuery

theorem JoinClause.sameTarget_iff {j k : JoinClause} :
    j.sameTarget k ↔ j.operator = k.operator ∧ j.owner = k.owner ∧ j.operand = k.operand := by
  simp [sameTarget, and_assoc]

/-! ## Paths of joins -/

/-- A join leads along a dotted path from the root: its operand, which stands behind the path of the
join that has named its owner. -/
inductive Navigates (joins : List JoinClause) : JoinClause → String → Prop
  | root {j : JoinClause} (h : j.owner = none) : Navigates joins j j.operand
  | owned {j k : JoinClause} {name path : String} (howner : j.owner = some name) (hk : k ∈ joins)
    (hname : k.aliasName = some name) (h : Navigates joins k path) :
    Navigates joins j (path ++ "." ++ j.operand)

theorem navigates_root_iff {joins : List JoinClause} {j : JoinClause} (h : j.owner = none)
    {path : String} : Navigates joins j path ↔ path = j.operand := by
  constructor
  · intro hpath
    cases hpath with
    | root => rfl
    | owned howner => cases h.symm.trans howner
  · rintro rfl
    exact .root h

variable {schema : Schema} {parents : List String} {names : OrderedMap String}
  {done : List (String × JoinClause)}

/-- The join of a path starts from the root, or from what one of the others has named. -/
def Sourced (earlier : List (String × JoinClause)) (x : String × JoinClause) : Prop :=
  x.2.owner = none ∧ x.1 = x.2.operand ∨
    ∃ k ∈ earlier, ∃ name, k.2.aliasName = some name ∧ x.2.owner = some name ∧
      x.1 = k.1 ++ "." ++ x.2.operand

/-- Joins made for paths, with the paths that are continued and the names given so far. -/
structure Joined (schema : Schema) (parents : List String) (names : OrderedMap String)
    (done : List (String × JoinClause)) : Prop where
  distinct : (done.map (·.1)).Nodup
  operator : ∀ x ∈ done, x.2.operator = .leftFetch
  /-- Every join is over a single relation. -/
  operand : ∀ x ∈ done, schema.Relates x.2.operand
  sourced : ∀ earlier x, earlier ++ [x] <+: done → Sourced earlier x
  /-- Those that are continued have a name. -/
  named : ∀ x ∈ done, x.2.aliasName.isSome ↔ x.1 ∈ parents
  /-- The table holds the names under their paths. -/
  table : names.entries = done.filterMap fun x => x.2.aliasName.map fun name => (x.1, name)
  /-- The names are those of relations, numbered in order. -/
  numbers : ∃ bases : List String, (∀ name ∈ bases, schema.Relates name) ∧
    names.values = bases.mapIdx fun i name => numbered name (i + 1)

namespace Joined

/-! ## Joins of a plan -/

theorem nil : Joined schema parents .empty [] where
  distinct := .nil
  operator := nofun
  operand := nofun
  sourced earlier x h := by simp at h
  named := nofun
  table := rfl
  numbers := ⟨[], nofun, rfl⟩

theorem get?_of_mem (h : Joined schema parents names done) {x : String × JoinClause}
    (hx : x ∈ done) {name : String} (hname : x.2.aliasName = some name) :
    names.get? x.1 = some name := by
  apply OrderedMap.get?_of_mem_entries
  rw [h.table]
  exact List.mem_filterMap.2 ⟨x, hx, by rw [hname]; rfl⟩

/-- The next path is joined over a single relation, from the root or from what has been named. -/
theorem joinSource_cases (hplain : schema.PlainNames) (h : Joined schema parents names done)
    {path : String}
    (hpath : schema.Relates path ∨
      ∃ parent ∈ done.map (·.1), ∃ name, schema.Relates name ∧ path = parent ++ "." ++ name)
    (hparents : ∀ parent name, splitPath path = some (parent, name) → parent ∈ parents) :
    ∃ owner relation, joinSource names path = (owner, relation) ∧ schema.Relates relation ∧
      ∀ aliasName, Sourced done (path, ⟨.leftFetch, owner, relation, aliasName⟩) := by
  rcases hpath with hpath | ⟨parent, hparent, name, hname, rfl⟩
  · refine ⟨none, path, ?_, hpath, fun _ => .inl ⟨rfl, rfl⟩⟩
    rw [joinSource, splitPath_of_notMem (hpath.plain hplain).1]
  · obtain ⟨k, hk, rfl⟩ := List.mem_map.1 hparent
    have hsplit := splitPath_append (hname.plain hplain).1 k.1
    obtain ⟨owner, howner⟩ := Option.isSome_iff_exists.1
      ((h.named k hk).2 (hparents _ _ hsplit))
    refine ⟨some owner, name, ?_, hname, fun _ => .inr ⟨k, hk, owner, howner, rfl, rfl⟩⟩
    simp only [joinSource, hsplit, h.get?_of_mem hk howner]

/-- A join of a new path goes behind the others, under the next number if it is continued. -/
theorem concat (h : Joined schema parents names done) {path relation : String}
    {owner aliasName : Option String} (hnew : path ∉ done.map (·.1))
    (hrelation : schema.Relates relation)
    (halias : aliasName =
      if path ∈ parents then some (numbered relation (names.size + 1)) else none)
    (hsource : Sourced done (path, ⟨.leftFetch, owner, relation, aliasName⟩)) :
    Joined schema parents (aliasName.elim names fun name => names.insert path name)
      (done ++ [(path, ⟨.leftFetch, owner, relation, aliasName⟩)]) := by
  obtain ⟨bases, hbases, hvalues⟩ := h.numbers
  have hsize : names.entries.length = bases.length := by
    simpa [OrderedMap.values] using congrArg List.length hvalues
  -- Names stand under paths that have been joined, so that of a new path goes behind them all.
  have hkey : path ∉ names.entries.map (·.1) := by
    rw [h.table]
    intro hmem
    obtain ⟨entry, hentry, rfl⟩ := List.mem_map.1 hmem
    obtain ⟨x, hx, heq⟩ := List.mem_filterMap.1 hentry
    obtain ⟨name, -, rfl⟩ := Option.map_eq_some_iff.1 heq
    exact hnew (List.mem_map_of_mem hx)
  constructor
  case distinct =>
    rw [List.map_append, List.map_singleton, ← List.concat_eq_append]
    exact h.distinct.concat hnew
  case operator => exact List.forall_mem_append.2 ⟨h.operator, List.forall_mem_singleton.2 rfl⟩
  case operand =>
    exact List.forall_mem_append.2 ⟨h.operand, List.forall_mem_singleton.2 hrelation⟩
  case sourced =>
    intro earlier x hx
    rcases List.prefix_concat_iff.1 hx with heq | hx
    · obtain ⟨rfl, hxs⟩ := List.append_inj' heq rfl
      obtain rfl := List.singleton_inj.1 hxs
      exact hsource
    · exact h.sourced earlier x hx
  case named =>
    refine List.forall_mem_append.2 ⟨h.named, List.forall_mem_singleton.2 ?_⟩
    rw [halias]
    split <;> simp [*]
  case table =>
    rw [List.filterMap_append, ← h.table]
    cases aliasName with
    | none => simp
    | some name => exact OrderedMap.insertPair_of_notMem hkey
  case numbers =>
    by_cases hparent : path ∈ parents
    · rw [if_pos hparent] at halias
      subst halias
      refine ⟨bases ++ [relation], List.forall_mem_append.2
        ⟨hbases, List.forall_mem_singleton.2 hrelation⟩, ?_⟩
      rw [List.mapIdx_concat, ← hvalues, ← hsize]
      show (OrderedMap.insertPair _ _ _).map _ = _
      rw [OrderedMap.insertPair_of_notMem hkey, List.map_append]
      rfl
    · rw [if_neg hparent] at halias
      subst halias
      exact ⟨bases, hbases, hvalues⟩

/-- The joins of planned paths that grow behind those of others. -/
theorem fetchClauses (hplain : schema.PlainNames) {planned : List PlannedFetch}
    (h : Joined schema parents names done)
    (hgrows : FetchPlan.Grows schema (done.map (·.1)) (planned.map (·.path)))
    (hparents : ∀ fetch ∈ planned, ∀ parent name, splitPath fetch.path = some (parent, name) →
      parent ∈ parents) :
    ∃ names' : OrderedMap String, ∃ more : List (String × JoinClause),
      Joined schema parents names' (done ++ more) ∧
      more.map (·.1) = planned.map (·.path) ∧
      more.map (·.2) = (EntityQuery.fetchClauses parents names planned).map (·.1) := by
  induction planned generalizing names done with
  | nil => exact ⟨names, [], by simpa using h, rfl, rfl⟩
  | cons fetch planned ih =>
    -- The path is new and continues none but one in front, so its join keeps what is known of all.
    obtain ⟨hnew, hpath, hgrows⟩ := hgrows
    obtain ⟨hparent, hparents⟩ := List.forall_mem_cons.1 hparents
    obtain ⟨owner, relation, hsource, hrelation, hsourced⟩ :=
      h.joinSource_cases hplain hpath hparent
    have hnext := h.concat hnew hrelation rfl (hsourced _)
    obtain ⟨names', more, hjoined, hpaths, hclauses⟩ :=
      ih hnext (by rwa [List.map_append]) hparents
    refine ⟨names', _ :: more, by rwa [List.append_cons], ?_, ?_⟩
    · rw [List.map_cons, hpaths]
      rfl
    · rw [List.map_cons, hclauses, EntityQuery.fetchClauses, hsource]
      rfl

/-! ## Names of joins -/

theorem filterMap_aliasName (h : Joined schema parents names done) :
    done.filterMap (·.2.aliasName) = names.values := by
  rw [OrderedMap.values, h.table, List.map_filterMap]
  congr 1
  funext x
  cases x.2.aliasName <;> rfl

/-- Numbers tell the names apart, whatever relations they are given to. -/
theorem nodup_aliasNames (hplain : schema.PlainNames) (h : Joined schema parents names done) :
    (done.filterMap (·.2.aliasName)).Nodup := by
  obtain ⟨bases, hbases, hvalues⟩ := h.numbers
  rw [h.filterMap_aliasName, hvalues]
  refine List.pairwise_iff_getElem.2 ?_
  intro i j hi hj hlt heq
  rw [List.getElem_mapIdx, List.getElem_mapIdx] at heq
  have hplain' : ∀ name ∈ bases, PlainName name := fun name hname => (hbases name hname).plain hplain
  have hnumber := (numbered_inj (hplain' _ (List.getElem_mem _)) (hplain' _ (List.getElem_mem _))
    heq).2
  omega

theorem exists_numbered (h : Joined schema parents names done) {name : String}
    (hname : name ∈ done.filterMap (·.2.aliasName)) :
    ∃ relation n, schema.Relates relation ∧ name = numbered relation n := by
  obtain ⟨bases, hbases, hvalues⟩ := h.numbers
  rw [h.filterMap_aliasName, hvalues] at hname
  obtain ⟨i, hi, rfl⟩ := List.mem_mapIdx.1 hname
  exact ⟨bases[i], i + 1, hbases _ (List.getElem_mem hi), rfl⟩

/-- A name is given for one path only. -/
theorem path_eq_of_aliasName (hplain : schema.PlainNames) (h : Joined schema parents names done)
    {x y : String × JoinClause} (hx : x ∈ done) (hy : y ∈ done) {name : String}
    (hxname : x.2.aliasName = some name) (hyname : y.2.aliasName = some name) : x.1 = y.1 := by
  have hentry : ∀ {x : String × JoinClause}, x ∈ done → x.2.aliasName = some name →
      (x.1, name) ∈ names.entries := by
    intro x hx hname
    rw [h.table]
    exact List.mem_filterMap.2 ⟨x, hx, by rw [hname]; rfl⟩
  have hnodup : (names.entries.map (·.2)).Nodup := by
    have hvalues := h.nodup_aliasNames hplain
    rwa [h.filterMap_aliasName] at hvalues
  have heq := List.inj_on_of_nodup_map hnodup (hentry hx hxname) (hentry hy hyname) rfl
  exact (Prod.mk.inj heq).1

theorem sourced_of_mem (h : Joined schema parents names done) {x : String × JoinClause}
    (hx : x ∈ done) : Sourced done x := by
  obtain ⟨earlier, later, rfl⟩ := List.append_of_mem hx
  rcases h.sourced earlier x ⟨later, by simp⟩ with hroot | ⟨k, hk, hname⟩
  · exact .inl hroot
  · exact .inr ⟨k, List.mem_append_left _ hk, hname⟩

/-- Joins over the same relation from the same owner are for the same path. -/
theorem path_eq_of_same (hplain : schema.PlainNames) (h : Joined schema parents names done)
    {x y : String × JoinClause} (hx : x ∈ done) (hy : y ∈ done) (howner : x.2.owner = y.2.owner)
    (hoperand : x.2.operand = y.2.operand) : x.1 = y.1 := by
  rcases h.sourced_of_mem hx with ⟨hxo, hxp⟩ | ⟨k, hk, name, hkname, hxo, hxp⟩ <;>
    rcases h.sourced_of_mem hy with ⟨hyo, hyp⟩ | ⟨k', hk', name', hkname', hyo, hyp⟩
  · rw [hxp, hyp, hoperand]
  · cases hxo.symm.trans (howner.trans hyo)
  · cases hxo.symm.trans (howner.trans hyo)
  · obtain rfl := Option.some.inj (hxo.symm.trans (howner.trans hyo))
    rw [hxp, hyp, hoperand, h.path_eq_of_aliasName hplain hk hk' hkname hkname']

theorem pairwise_not_sameTarget (hplain : schema.PlainNames)
    (h : Joined schema parents names done) :
    (done.map (·.2)).Pairwise fun j k => ¬ j.sameTarget k := by
  refine List.pairwise_map.2 ((List.pairwise_map.1 h.distinct).imp_of_mem ?_)
  intro x y hx hy hne hsame
  obtain ⟨-, howner, hoperand⟩ := JoinClause.sameTarget_iff.1 hsame
  exact hne (h.path_eq_of_same hplain hx hy howner hoperand)

/-! ## Paths along which joins lead -/

variable {joins : List JoinClause}

theorem navigates (h : Joined schema parents names done) (hjoins : ∀ x ∈ done, x.2 ∈ joins)
    {x : String × JoinClause} (hx : x ∈ done) : Navigates joins x.2 x.1 := by
  -- From the first join to the last: an owner is named by a join in front.
  suffices hall : ∀ earlier, earlier <+: done → ∀ x ∈ earlier, Navigates joins x.2 x.1 from
    hall done List.prefix_rfl x hx
  intro earlier
  induction earlier using List.reverseRecOn with
  | nil => exact fun _ _ hx => nomatch hx
  | append_singleton earlier y ih =>
    intro hpre x hx
    have hearlier := ih ((List.prefix_append _ _).trans hpre)
    rcases List.mem_append.1 hx with hx | hx
    · exact hearlier x hx
    · obtain rfl := List.mem_singleton.1 hx
      rcases h.sourced earlier x hpre with ⟨howner, hpath⟩ | ⟨k, hk, name, hname, howner, hpath⟩
      · rw [hpath]
        exact .root howner
      · rw [hpath]
        exact .owned howner (hjoins k (hpre.subset (List.mem_append_left _ hk))) hname
          (hearlier k hk)

/-- It leads along no other path, where no further join brings in a name. -/
theorem path_eq_of_navigates (hplain : schema.PlainNames) (h : Joined schema parents names done)
    (hnamed : ∀ k ∈ joins, k.aliasName.isSome → ∃ path, (path, k) ∈ done)
    {j : JoinClause} {p path : String} (hx : (p, j) ∈ done) (hpath : Navigates joins j path) :
    path = p := by
  induction hpath generalizing p with
  | @root j howner =>
    rcases h.sourced_of_mem hx with ⟨-, hp⟩ | ⟨k, hk, name, hname, howner', hp⟩
    · exact hp.symm
    · cases howner.symm.trans howner'
  | @owned j k name path howner hk hname _ ih =>
    rcases h.sourced_of_mem hx with ⟨howner', hp⟩ | ⟨k', hk', name', hname', howner', hp⟩
    · cases howner.symm.trans howner'
    · -- The owner's name was given for one path, so the join leads behind that path either way.
      obtain rfl := Option.some.inj (howner.symm.trans howner')
      obtain ⟨path', hk⟩ := hnamed k hk (by rw [hname]; rfl)
      have hpath := ih hk
      have hsame : path' = k'.1 := h.path_eq_of_aliasName hplain hk hk' hname hname'
      rw [hpath, hsame]
      exact hp.symm

theorem navigates_iff (hplain : schema.PlainNames) (h : Joined schema parents names done)
    (hjoins : ∀ x ∈ done, x.2 ∈ joins)
    (hnamed : ∀ k ∈ joins, k.aliasName.isSome → ∃ path, (path, k) ∈ done)
    {x : String × JoinClause} (hx : x ∈ done) {path : String} :
    Navigates joins x.2 path ↔ path = x.1 := by
  constructor
  · exact h.path_eq_of_navigates hplain hnamed hx
  · rintro rfl
    exact h.navigates hjoins hx

/-- An owner is named by exactly one join in front. -/
theorem count_owner (hplain : schema.PlainNames) (h : Joined schema parents names done)
    {earlier : List JoinClause} {j : JoinClause} {owner : String}
    (hpre : earlier ++ [j] <+: done.map (·.2)) (howner : j.owner = some owner) :
    (earlier.filterMap (·.aliasName)).count owner = 1 := by
  obtain ⟨front, hfront, heq⟩ := List.prefix_map_iff.1 hpre
  obtain ⟨before, xs, rfl, rfl, hlast⟩ := List.map_eq_append_iff.1 heq.symm
  obtain ⟨x, rfl, rfl⟩ := List.map_eq_singleton_iff.1 hlast
  have hnodup : ((before.map (·.2)).filterMap (·.aliasName)).Nodup := by
    rw [List.filterMap_map]
    exact (h.nodup_aliasNames hplain).sublist
      (((List.prefix_append _ _).trans hfront).sublist.filterMap _)
  apply List.count_eq_one_of_mem hnodup
  rcases h.sourced before x hfront with ⟨hroot, -⟩ | ⟨k, hk, name, hname, howner', -⟩
  · cases hroot.symm.trans howner
  · obtain rfl := Option.some.inj (howner'.symm.trans howner)
    exact List.mem_filterMap.2 ⟨k.2, List.mem_map_of_mem hk, hname⟩

end Joined

/-! ## New drafts -/

variable {root : Entity}

/-- Joins of which no two have the same target go behind those that there are. -/
theorem joins_foldl_pushJoin (d : Draft) (clauses : List (JoinClause × Criterion))
    (h : (d.joins ++ clauses.map (·.1)).Pairwise fun j k => ¬ j.sameTarget k) :
    (clauses.foldl (fun d (clause, criterion) => d.pushJoin clause criterion) d).joins =
      d.joins ++ clauses.map (·.1) := by
  induction clauses generalizing d with
  | nil => simp
  | cons clause clauses ih =>
    have hnew : d.joins.any (·.sameTarget clause.1) = false := by
      rw [List.any_eq_false]
      intro j hj
      exact (List.pairwise_append.1 h).2.2 j hj clause.1 (.head _)
    have hpush : (d.pushJoin clause.1 clause.2).joins = d.joins ++ [clause.1] := by
      simp [Draft.pushJoin, hnew]
    have hjoins : d.joins ++ (clause :: clauses).map (·.1) =
        (d.pushJoin clause.1 clause.2).joins ++ clauses.map (·.1) := by
      simp [hpush]
    rw [List.foldl_cons, hjoins]
    exact ih _ (hjoins ▸ h)

namespace Draft

theorem create_eq {entity : String} (hblank : Text.isBlank entity = false)
    (hentity : schema.entity? entity = some root) (settings : Settings) :
    create entity schema settings =
      .ok ((start root.simpleName root.aliasName).autoFetch schema root settings) := by
  simp [create, hblank, hentity]

theorem exists_create_joinFetch {entity : String} (hblank : Text.isBlank entity = false)
    (hentity : schema.entity? entity = some root) (maxDepth : UInt8) :
    ∃ d, create entity schema ⟨.joinFetch, maxDepth⟩ = .ok d ∧ d.rootAlias = root.aliasName ∧
      d.joins = ((start root.simpleName root.aliasName).pushFetchJoins
        (fetchPlan schema root maxDepth)).joins := by
  refine ⟨_, create_eq hblank hentity _, ?_, rfl⟩
  obtain ⟨joins, joinCriteria, hints, heq⟩ :=
    autoFetch_eq (start root.simpleName root.aliasName) schema root ⟨.joinFetch, maxDepth⟩
  rw [heq]
  rfl

end Draft

/-- Over plain names, a new draft has one join for every planned fetch, and none is dropped. -/
theorem exists_joined {entity : String} (hplain : schema.PlainNames)
    (hblank : Text.isBlank entity = false) (hentity : schema.entity? entity = some root)
    (maxDepth : UInt8) :
    ∃ d names done, Draft.create entity schema ⟨.joinFetch, maxDepth⟩ = .ok d ∧
      d.rootAlias = root.aliasName ∧ d.joins = done.map (·.2) ∧
      Joined schema (parentPaths (fetchPlan schema root maxDepth)) names done ∧
      done.map (·.1) = (fetchPlan schema root maxDepth).map (·.path) := by
  have hparents : ∀ fetch ∈ fetchPlan schema root maxDepth, ∀ parent name,
      splitPath fetch.path = some (parent, name) →
        parent ∈ parentPaths (fetchPlan schema root maxDepth) := by
    intro fetch hfetch parent name hsplit
    exact List.mem_filterMap.2 ⟨fetch, hfetch, by rw [hsplit]; rfl⟩
  obtain ⟨names, done, hjoined, hpaths, hclauses⟩ :=
    Joined.nil.fetchClauses hplain
      (FetchPlan.grows_fetchPlan hplain (Schema.mem_toList_of_entity? hentity) maxDepth) hparents
  rw [List.nil_append] at hjoined
  obtain ⟨d, hcreate, halias, hjoins⟩ := Draft.exists_create_joinFetch hblank hentity maxDepth
  refine ⟨d, names, done, hcreate, halias, hjoins.trans ?_, hjoined, hpaths⟩
  refine (joins_foldl_pushJoin _ _ ?_).trans hclauses.symm
  exact hclauses ▸ hjoined.pairwise_not_sameTarget hplain

/-- Hints under new and distinct names go behind those that there are. -/
theorem entries_foldl_insert {α β : Type} (f : α → String) (g : α → β) (as : List α)
    (m : OrderedMap β) (h : (m.keys ++ as.map f).Nodup) :
    (as.foldl (fun m a => m.insert (f a) (g a)) m).entries =
      m.entries ++ as.map fun a => (f a, g a) := by
  induction as generalizing m with
  | nil => simp
  | cons a as ih =>
    have hnew : f a ∉ m.entries.map (·.1) := by
      intro hmem
      exact (List.nodup_append.1 h).2.2 _ hmem (f a) (.head _) rfl
    have hentries : (m.insert (f a) (g a)).entries = m.entries ++ [(f a, g a)] :=
      OrderedMap.insertPair_of_notMem hnew
    have hkeys : m.keys ++ (a :: as).map f = (m.insert (f a) (g a)).keys ++ as.map f := by
      rw [OrderedMap.keys, OrderedMap.keys, hentries, List.map_append, List.append_assoc]
      rfl
    rw [List.foldl_cons, ih _ (hkeys ▸ h), hentries, List.append_assoc]
    rfl

/-- A new draft with hints has one for every planned path, where these are distinct. -/
theorem exists_hinted {entity : String} (hblank : Text.isBlank entity = false)
    (hentity : schema.entity? entity = some root) (maxDepth : UInt8)
    (hnodup : ((fetchPlan schema root maxDepth).map (·.path)).Nodup) :
    ∃ d, Draft.create entity schema ⟨.fetchHints, maxDepth⟩ = .ok d ∧ d.joins = [] ∧
      d.rootAlias = root.aliasName ∧
      d.hints.entries = (fetchPlan schema root maxDepth).map fun fetch =>
        (root.aliasName ++ "." ++ fetch.path, .ofCardinality fetch.cardinality) := by
  refine ⟨_, Draft.create_eq hblank hentity _, rfl, rfl, ?_⟩
  refine entries_foldl_insert _ _ _ .empty ?_
  rw [← Function.comp_def, ← List.map_map]
  apply hnodup.map
  intro path path' heq
  exact String.append_right_inj _ |>.1 heq

/-- A planned path is continued exactly when another one stands one step behind it. -/
theorem Joined.mem_parentPaths_iff {planned : List PlannedFetch} (hplain : schema.PlainNames)
    (h : Joined schema parents names done) (hpaths : done.map (·.1) = planned.map (·.path))
    {path : String} : path ∈ parentPaths planned ↔
      ∃ child ∈ planned, ∃ name, schema.Relates name ∧ child.path = path ++ "." ++ name := by
  constructor
  · intro hpath
    obtain ⟨child, hchild, hparent⟩ := List.mem_filterMap.1 hpath
    obtain ⟨⟨parent, name⟩, hsplit, rfl⟩ := Option.map_eq_some_iff.1 hparent
    obtain ⟨x, hx, hxpath⟩ := List.mem_map.1 (hpaths ▸ List.mem_map_of_mem hchild)
    have hundotted := ((h.operand x hx).plain hplain).1
    refine ⟨child, hchild, x.2.operand, h.operand x hx, ?_⟩
    rw [← hxpath] at hsplit ⊢
    rcases h.sourced_of_mem hx with ⟨-, hp⟩ | ⟨k, -, -, -, -, hp⟩
    · rw [hp, splitPath_of_notMem hundotted] at hsplit
      cases hsplit
    · rw [hp, splitPath_append hundotted] at hsplit
      obtain ⟨rfl, -⟩ := Prod.mk.inj (Option.some.inj hsplit)
      exact hp
  · rintro ⟨child, hchild, name, hname, hpath⟩
    refine List.mem_filterMap.2 ⟨child, hchild, ?_⟩
    rw [hpath, splitPath_append (hname.plain hplain).1]
    rfl

/-! ## What is fetched -/

/-- A join fetches what is planned: it is over one relation, leads along the planned path and no
other, and has a name exactly when planned paths continue that path. -/
structure Fetches (schema : Schema) (planned : List PlannedFetch) (joins : List JoinClause)
    (fetch : PlannedFetch) (j : JoinClause) : Prop where
  operator : j.operator = .leftFetch
  operand : schema.Relates j.operand
  path : ∀ path, Navigates joins j path ↔ path = fetch.path
  aliasName : j.aliasName.isSome ↔ ∃ child ∈ planned, ∃ name, schema.Relates name ∧
    child.path = fetch.path ++ "." ++ name

theorem Joined.forall₂_fetches {planned : List PlannedFetch} (hplain : schema.PlainNames)
    (h : Joined schema parents names done) (hpaths : done.map (·.1) = planned.map (·.path))
    (hparents : parents = parentPaths planned) :
    List.Forall₂ (Fetches schema planned (done.map (·.2))) planned (done.map (·.2)) := by
  refine List.forall₂_iff_zip.2 ⟨by simpa using (congrArg List.length hpaths).symm, ?_⟩
  intro fetch j hmem
  have hx : (fetch.path, j) ∈ done := by
    have hzip : (fetch.path, j) ∈ (planned.map (·.path)).zip (done.map (·.2)) := by
      rw [← List.map_id (done.map (·.2)), List.zip_map]
      exact List.mem_map_of_mem hmem
    rw [← hpaths, List.zip_map'] at hzip
    simpa using hzip
  refine ⟨h.operator _ hx, h.operand _ hx, fun path => ?_, ?_⟩
  · refine h.navigates_iff hplain (fun x hx => List.mem_map_of_mem hx) ?_ hx
    intro k hk _
    obtain ⟨x, hx, rfl⟩ := List.mem_map.1 hk
    exact ⟨x.1, hx⟩
  · rw [h.named _ hx, hparents]
    exact h.mem_parentPaths_iff hplain hpaths

/-- Over plain names, joins and hints fetch the same. With joins there is one for every planned
fetch, in the order of the plan, and the owner of each is the root or has been named by exactly one
join in front. With hints there is one for every planned path, by its cardinality, and no join. -/
theorem fetches_planned {entity : String} (hplain : schema.PlainNames)
    (hblank : Text.isBlank entity = false) (hentity : schema.entity? entity = some root)
    (maxDepth : UInt8) :
    ∃ joined hinted,
      Draft.create entity schema ⟨.joinFetch, maxDepth⟩ = .ok joined ∧
      Draft.create entity schema ⟨.fetchHints, maxDepth⟩ = .ok hinted ∧
      List.Forall₂ (Fetches schema (fetchPlan schema root maxDepth) joined.joins)
        (fetchPlan schema root maxDepth) joined.joins ∧
      (∀ earlier j owner, earlier ++ [j] <+: joined.joins → j.owner = some owner →
        (earlier.filterMap (·.aliasName)).count owner = 1) ∧
      hinted.rootAlias = root.aliasName ∧
      hinted.hints.entries = (fetchPlan schema root maxDepth).map (fun fetch =>
        (root.aliasName ++ "." ++ fetch.path,
          match fetch.cardinality with
          | .many => .batchFetch
          | .one => .leftFetch)) ∧
      hinted.joins = [] := by
  obtain ⟨joined, names, done, hcreate, -, hjoins, hjoined, hpaths⟩ :=
    exists_joined hplain hblank hentity maxDepth
  obtain ⟨hinted, hcreate', hnone, halias, hhints⟩ :=
    exists_hinted hblank hentity maxDepth (hpaths ▸ hjoined.distinct)
  refine ⟨joined, hinted, hcreate, hcreate', ?_, ?_, halias, hhints, hnone⟩
  · rw [hjoins]
    exact hjoined.forall₂_fetches hplain hpaths rfl
  · intro earlier j owner hpre howner
    exact hjoined.count_owner hplain (hjoins ▸ hpre) howner

/-- Products of order lines are joined from the lines, which stand in front of them. -/
theorem fetches_planned_nested :
    let order : Entity :=
      ⟨"Order", [⟨"lines", "Line", .many⟩, ⟨"customer", "Customer", .one⟩]⟩
    let schema := Schema.ofList [order, ⟨"Line", [⟨"product", "Product", .one⟩]⟩]
    let plan : List PlannedFetch :=
      [⟨"lines", .many, 1⟩, ⟨"lines.product", .one, 2⟩, ⟨"customer", .one, 1⟩]
    schema.PlainNames ∧ Text.isBlank "Order" = false ∧ schema.entity? "Order" = some order ∧
      ∃ joined hinted,
        Draft.create "Order" schema ⟨.joinFetch, 3⟩ = .ok joined ∧
        Draft.create "Order" schema ⟨.fetchHints, 3⟩ = .ok hinted ∧
        List.Forall₂ (Fetches schema plan joined.joins) plan joined.joins ∧
        (∀ earlier j owner, earlier ++ [j] <+: joined.joins → j.owner = some owner →
          (earlier.filterMap (·.aliasName)).count owner = 1) ∧
        hinted.rootAlias = "order" ∧
        hinted.hints.entries = [("order.lines", .batchFetch), ("order.lines.product", .leftFetch),
          ("order.customer", .leftFetch)] ∧
        hinted.joins = [] := by
  intro order schema plan
  have hplain : schema.PlainNames := by decide
  have hblank : Text.isBlank "Order" = false := by decide
  have hentity : schema.entity? "Order" = some order := by decide
  have halias : order.aliasName = "order" := by decide
  have hplan : fetchPlan schema order 3 = plan := by
    rw [fetchPlan, FetchPlan.relations, FetchPlan.walk_eq_walkWithin 5 (by decide)]
    decide
  have hfetches := fetches_planned hplain hblank hentity 3
  rw [hplan, halias] at hfetches
  exact ⟨hplain, hblank, hentity, hfetches⟩

end QueryCriteria.EntityQuery
