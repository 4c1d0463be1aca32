import QueryCriteria.Proofs.EntityQuery.Fetching
/-!
# Qualifiers and the order of declaration

Schemas that are alike but for the qualifiers in front of names and for the order in which entities
are registered plan the same fetches, and give the same draft for a name (`qualifiers_unseen`). A
walk looks at names without their qualifiers only (`Walks.unqualified`).
-/

namespace QueryCriteria

/-! ## Schemas without qualifiers -/

/-- The relation with the simple name of its target. -/
def Relation.unqualified (r : Relation) : Relation := { r with target := simpleName r.target }

/-- The entity with simple names only. -/
def Entity.unqualified (e : Entity) : Entity := ⟨e.simpleName, e.relations.map .unqualified⟩

namespace Schema

variable {s s' : Schema} {e : Entity} {name name' : String}

/-- The schemas register the same entities, but for qualifiers and the order of registration. -/
def Alike (s s' : Schema) : Prop :=
  (s.toList.map Entity.unqualified).Perm (s'.toList.map Entity.unqualified)

instance (s s' : Schema) : Decidable (s.Alike s') := inferInstanceAs (Decidable (List.Perm _ _))

theorem Alike.symm (h : s.Alike s') : s'.Alike s := List.Perm.symm h

theorem entity?_eq_some_iff :
    s.entity? name = some e ↔ e ∈ s.toList ∧ e.simpleName = simpleName name := by
  constructor
  · exact fun h => ⟨mem_toList_of_entity? h, simpleName_of_entity? h⟩
  · rintro ⟨hmem, hname⟩
    rw [← entity?_simpleName, ← hname, ← entity?_of_mem hmem]

/-- Names alike refer to entities alike, if to any. -/
theorem Alike.entity? (h : s.Alike s') (hname : simpleName name = simpleName name') :
    (s.entity? name).map Entity.unqualified = (s'.entity? name').map Entity.unqualified := by
  have hfound {s s' : Schema} {name name' : String} (h : s.Alike s')
      (hname : simpleName name = simpleName name') {e : Entity} (he : s.entity? name = some e) :
      ∃ e', s'.entity? name' = some e' ∧ e'.unqualified = e.unqualified := by
    obtain ⟨hmem, hsimple⟩ := entity?_eq_some_iff.1 he
    obtain ⟨e', hmem', heq⟩ := List.mem_map.1 (h.subset (List.mem_map_of_mem hmem))
    have hsimple' : e'.simpleName = e.simpleName := congrArg Entity.name heq
    exact ⟨e', entity?_eq_some_iff.2 ⟨hmem', by rw [hsimple', hsimple, hname]⟩, heq⟩
  cases he : s.entity? name with
  | some e =>
    obtain ⟨e', he', heq⟩ := hfound h hname he
    rw [he', Option.map_some, Option.map_some, heq]
  | none =>
    cases he' : s'.entity? name' with
    | none => rfl
    | some e' =>
      obtain ⟨e, hsome, -⟩ := hfound h.symm hname.symm he'
      cases he.symm.trans hsome

end Schema

/-! ## Plans -/

namespace FetchPlan

/-- The pending relation with the simple name of its target. -/
def Pending.unqualified (p : Pending) : Pending := { p with relation := p.relation.unqualified }

section
variable {p p' : Pending} {e e' : Entity} {schema schema' : Schema} {m : Nat}

@[simp] theorem unqualified_path (p : Pending) : p.unqualified.path = p.path := rfl

@[simp] theorem unqualified_depth (p : Pending) : p.unqualified.depth = p.depth := rfl

@[simp] theorem unqualified_planned (p : Pending) : p.unqualified.planned = p.planned := rfl

@[simp] theorem unqualified_target (p : Pending) : p.unqualified.target = p.target :=
  simpleName_simpleName p.relation.target

theorem relationsAt_unqualified (h : e.unqualified = e'.unqualified) (lead : String) (depth : Nat) :
    (relationsAt m e lead depth).map Pending.unqualified =
      (relationsAt m e' lead depth).map Pending.unqualified := by
  have hrelations : e.relations.map Relation.unqualified = e'.relations.map Relation.unqualified :=
    congrArg Entity.relations h
  have hpending := congrArg (List.map fun r => (⟨lead, depth, r⟩ : Pending)) hrelations
  rw [List.map_map, List.map_map] at hpending
  unfold relationsAt
  split
  · rfl
  · rw [List.map_map, List.map_map]
    exact hpending

theorem onward_unqualified (hp : p.unqualified = p'.unqualified)
    (he : e.unqualified = e'.unqualified) :
    (p.onward m e).map Pending.unqualified = (p'.onward m e').map Pending.unqualified := by
  have hpath : p.path = p'.path := by simpa using congrArg Pending.path hp
  have hdepth : p.depth = p'.depth := by simpa using congrArg Pending.depth hp
  rw [Pending.onward, Pending.onward, hpath, hdepth]
  exact relationsAt_unqualified he _ _

/-- In schemas alike, what is walked alike is planned alike. -/
theorem Walks.unqualified (h : schema.Alike schema') {visited : List String}
    {pending pending' out : List Pending} (hwalks : Walks schema m visited pending out)
    (hpending : pending.map Pending.unqualified = pending'.map Pending.unqualified) :
    ∃ out', Walks schema' m visited pending' out' ∧
      out.map Pending.unqualified = out'.map Pending.unqualified := by
  -- Both walks look up the same simple names and find entities alike, so each step of the one is a
  -- step of the other by the same rule.
  induction hwalks generalizing pending' with
  | done =>
    obtain rfl := List.map_eq_nil_iff.1 hpending.symm
    exact ⟨[], .done, rfl⟩
  | @again visited p rest out hold _ ih =>
    obtain ⟨p', rest', rfl, hp, hrest⟩ := List.map_eq_cons_iff.1 hpending.symm
    obtain ⟨out', hwalks, hout⟩ := ih hrest.symm
    have htarget : p'.target = p.target := by simpa using congrArg Pending.target hp
    have hdepth : p'.depth = p.depth := by simpa using congrArg Pending.depth hp
    rw [← htarget] at hold
    refine ⟨_, .again hold hwalks, ?_⟩
    rw [List.map_append, List.map_append, hout, hdepth]
    split
    · rfl
    · rw [List.map_singleton, List.map_singleton, hp]
  | @found visited p e rest out hnew he _ ih =>
    obtain ⟨p', rest', rfl, hp, hrest⟩ := List.map_eq_cons_iff.1 hpending.symm
    have htarget : p'.target = p.target := by simpa using congrArg Pending.target hp
    have hentity := h.entity? (congrArg simpleName htarget.symm)
    rw [he] at hentity
    obtain ⟨e', he', heq⟩ := Option.map_eq_some_iff.1 hentity.symm
    have hahead : (p.onward m e ++ rest).map Pending.unqualified =
        (p'.onward m e' ++ rest').map Pending.unqualified := by
      rw [List.map_append, List.map_append, onward_unqualified hp.symm heq.symm, hrest]
    obtain ⟨out', hwalks, hout⟩ := ih hahead
    rw [← htarget] at hnew hwalks
    exact ⟨_, .found hnew he' hwalks, by rw [List.map_cons, List.map_cons, hout, hp]⟩
  | @missing visited p rest out hnew he _ ih =>
    obtain ⟨p', rest', rfl, hp, hrest⟩ := List.map_eq_cons_iff.1 hpending.symm
    have htarget : p'.target = p.target := by simpa using congrArg Pending.target hp
    have hentity := h.entity? (congrArg simpleName htarget.symm)
    rw [he] at hentity
    have he' : schema'.entity? p'.target = none := Option.map_eq_none_iff.1 hentity.symm
    obtain ⟨out', hwalks, hout⟩ := ih hrest.symm
    rw [← htarget] at hnew hwalks
    exact ⟨_, .missing hnew he' hwalks, by rw [List.map_cons, List.map_cons, hout, hp]⟩

/-- Entities alike have the same plan in schemas alike. -/
theorem fetchPlan_unqualified (h : schema.Alike schema') (he : e.unqualified = e'.unqualified)
    (maxDepth : UInt8) : fetchPlan schema e maxDepth = fetchPlan schema' e' maxDepth := by
  have hname : e.simpleName = e'.simpleName := congrArg Entity.name he
  obtain ⟨out', hwalks, hout⟩ := (walks schema maxDepth.toNat [e.simpleName] _).unqualified h
    (relationsAt_unqualified he "" 1)
  have hplanned := congrArg (List.map Pending.planned) hout
  simp only [List.map_map, Function.comp_def, unqualified_planned] at hplanned
  rw [hname] at hwalks
  rw [fetchPlan, fetchPlan, relations, relations, hplanned, (walks _ _ _ _).unique hwalks]

end

end FetchPlan

/-! ## Drafts -/

namespace EntityQuery.Draft

variable {schema schema' : Schema} {name name' : String}

/-- Names alike have the same draft in schemas alike, if any. -/
theorem create_unqualified (h : schema.Alike schema') (hname : simpleName name = simpleName name')
    (hblank : Text.isBlank name = false) (hblank' : Text.isBlank name' = false)
    (settings : Settings) {d : Draft} :
    create name schema settings = .ok d ↔ create name' schema' settings = .ok d := by
  have hentity := h.entity? hname
  unfold create
  rw [hblank, hblank']
  cases he : schema.entity? name with
  | none =>
    rw [he] at hentity
    simp [Option.map_eq_none_iff.1 hentity.symm]
  | some e =>
    rw [he] at hentity
    obtain ⟨e', he', heq⟩ := Option.map_eq_some_iff.1 hentity.symm
    have hsimple : e'.simpleName = e.simpleName := congrArg Entity.name heq
    have hplan := FetchPlan.fetchPlan_unqualified h heq.symm settings.maxDepth
    have halias : e'.aliasName = e.aliasName := congrArg Text.lower hsimple
    simp only [he', autoFetch, hplan, hsimple, halias]

/-- Neither qualifiers nor the order of registration make a difference: schemas alike plan the same
fetches for names alike, and give drafts that no sequence of calls tells apart. -/
theorem qualifiers_unseen (h : schema.Alike schema') (hname : simpleName name = simpleName name')
    (hblank : Text.isBlank name = false) (hblank' : Text.isBlank name' = false) :
    (∀ maxDepth, (schema.entity? name).map (fetchPlan schema · maxDepth) =
      (schema'.entity? name').map (fetchPlan schema' · maxDepth)) ∧
    ∀ settings,
      ((∃ d, create name schema settings = .ok d) ↔ ∃ d, create name' schema' settings = .ok d) ∧
      ∀ d d', create name schema settings = .ok d → create name' schema' settings = .ok d' →
        ∀ calls, outcomes perform d calls = outcomes perform d' calls ∧
          d.run calls = d'.run calls ∧ (d.run calls).compile = (d'.run calls).compile := by
  constructor
  · intro maxDepth
    have hentity := h.entity? hname
    cases he : schema.entity? name with
    | none =>
      rw [he] at hentity
      rw [Option.map_eq_none_iff.1 hentity.symm]
      rfl
    | some e =>
      rw [he] at hentity
      obtain ⟨e', he', heq⟩ := Option.map_eq_some_iff.1 hentity.symm
      rw [he', Option.map_some, Option.map_some, FetchPlan.fetchPlan_unqualified h heq.symm]
  · intro settings
    constructor
    · exact exists_congr fun d => create_unqualified h hname hblank hblank' settings
    · intro d d' hd hd' calls
      rw [create_unqualified h hname hblank hblank' settings, hd'] at hd
      cases hd
      exact ⟨rfl, rfl, rfl⟩

/-- A schema with qualifiers in front of some names, and one with others in another order. -/
theorem qualifiers_unseen_reordered :
    let order : Entity := ⟨"shop.Order", [⟨"lines", "shop.Line", .many⟩]⟩
    let schema := Schema.ofList [order,
      ⟨"Line", [⟨"product", "stock:Product", .one⟩, ⟨"order", "Order", .one⟩]⟩]
    let schema' := Schema.ofList [⟨"shop::Line", [⟨"product", "Product", .one⟩,
      ⟨"order", "old.shop.Order", .one⟩]⟩, ⟨"Order", [⟨"lines", "Line", .many⟩]⟩]
    ∃ d d', create "Order" schema ⟨.joinFetch, 3⟩ = .ok d ∧
      create "crm.Order" schema' ⟨.joinFetch, 3⟩ = .ok d' ∧
      d.text = "select distinct order from Order order left join fetch order.lines lines1" ++
        " left join fetch lines1.product" ∧ d' = d := by
  intro order schema schema'
  have h : schema.Alike schema' := by decide
  have hblank : Text.isBlank "Order" = false := by decide
  have hentity : schema.entity? "Order" = some order := by decide
  have hplan : fetchPlan schema order 3 = [⟨"lines", .many, 1⟩, ⟨"lines.product", .one, 2⟩] := by
    rw [fetchPlan, FetchPlan.relations, FetchPlan.walk_eq_walkWithin 5 (by decide)]
    decide
  have hd := create_eq hblank hentity ⟨.joinFetch, 3⟩
  simp only [autoFetch, hplan] at hd
  have hname : simpleName "Order" = simpleName "crm.Order" := by decide
  obtain ⟨-, hdrafts⟩ := qualifiers_unseen h hname hblank (by decide)
  obtain ⟨hboth, hsame⟩ := hdrafts ⟨.joinFetch, 3⟩
  obtain ⟨d', hd'⟩ := hboth.1 ⟨_, hd⟩
  obtain ⟨-, hrun, -⟩ := hsame _ d' hd hd' []
  exact ⟨_, d', hd, hd', by decide, hrun.symm⟩

end EntityQuery.Draft

end QueryCriteria
