import QueryCriteria.Proofs.FetchPlan
/-!
# What limited plans reach

A walk with a limit first meets an entity by some relation, and goes on from there unless the limit
leaves no step. So it plans exactly the names that some relations lead to without passing an entity
where it stops (`reachesThrough_iff_planned`). With a higher limit it may meet an entity earlier in
its course but further from the root, and stop where the shorter walk went on: what lies only behind
such an entity is lost (`deeper_plan_keeps_iff`, `deeper_plan_loses`).
-/

namespace QueryCriteria.FetchPlan

variable {schema : Schema} {m : Nat} {visited : List String} {pending out : List Pending}
  {p : Pending} {start : String} {passes : String → Prop}

/-! ## Reaching through some names only -/

/-- The names that declared relations lead to through registered entities that may be passed. -/
inductive ReachesThrough (schema : Schema) (passes : String → Prop) (start : String) :
    String → Prop
  | refl : ReachesThrough schema passes start start
  | step {name : String} {e : Entity} {r : Relation}
    (h : ReachesThrough schema passes start name) (hname : passes name)
    (he : schema.entity? name = some e) (hr : r ∈ e.relations) :
    ReachesThrough schema passes start (simpleName r.target)

theorem ReachesThrough.mono {passes' : String → Prop} {name : String}
    (h : ReachesThrough schema passes start name) (hpasses : ∀ n, passes n → passes' n) :
    ReachesThrough schema passes' start name := by
  induction h with
  | refl => exact .refl
  | step _ hname he hr ih => exact ih.step (hpasses _ hname) he hr

/-- The relation is declared by an entity that may be passed and is reached. -/
def DeclaredThrough (schema : Schema) (passes : String → Prop) (start : String) (p : Pending) :
    Prop :=
  ∃ name e, ReachesThrough schema passes start name ∧ passes name ∧
    schema.entity? name = some e ∧ p.relation ∈ e.relations

theorem DeclaredThrough.reaches (h : DeclaredThrough schema passes start p) :
    ReachesThrough schema passes start p.target := by
  obtain ⟨name, e, hname, hpass, he, hr⟩ := h
  exact hname.step hpass he hr

/-! ## Steps and the limit -/

theorem Walks.depth_le (h : Walks schema m visited pending out)
    (hpending : ∀ p ∈ pending, p.depth ≤ m) : ∀ p ∈ out, p.depth ≤ m := by
  apply h.forall_out hpending
  intro p e _ _ _ q hq
  exact (hasStep_of_mem_onward hq).2

/-- The relations of the root are planned wherever they lead. -/
theorem Walks.mem_of_direct (h : Walks schema m visited pending out) (hp : p ∈ pending)
    (hdepth : p.depth ≤ 1) : p ∈ out := by
  induction h with
  | done => exact hp
  | again _ _ ih =>
    rcases List.mem_cons.1 hp with rfl | hp
    · simp [Nat.not_lt.2 hdepth]
    · exact List.mem_append_right _ (ih hp)
  | found _ _ _ ih =>
    rcases List.mem_cons.1 hp with rfl | hp
    · exact .head _
    · exact .tail _ (ih (List.mem_append_right _ hp))
  | missing _ _ _ ih =>
    rcases List.mem_cons.1 hp with rfl | hp
    · exact .head _
    · exact .tail _ (ih hp)

/-- Beyond the relations of the root, none is planned that leads to what has been visited. -/
theorem Walks.depth_le_one (h : Walks schema m visited pending out) (hp : p ∈ out)
    (htarget : p.target ∈ visited) : p.depth ≤ 1 := by
  induction h with
  | done => cases hp
  | again _ _ ih =>
    split at hp
    · exact ih hp htarget
    · next hdepth =>
      rcases List.mem_cons.1 hp with rfl | hp
      · exact Nat.not_lt.1 hdepth
      · exact ih hp htarget
  | found hnew _ _ ih =>
    rcases List.mem_cons.1 hp with rfl | hp
    · exact absurd htarget hnew
    · exact ih hp (.tail _ htarget)
  | missing hnew _ _ ih =>
    rcases List.mem_cons.1 hp with rfl | hp
    · exact absurd htarget hnew
    · exact ih hp (.tail _ htarget)

/-! ## Limited plans -/

variable {root : Entity} {maxDepth : UInt8} {name : String}

/-- How many steps away a plan first meets an entity. The root is met without a step. -/
def metAt? (schema : Schema) (root : Entity) (maxDepth : UInt8) (name : String) : Option Nat :=
  if name = root.simpleName then some 0
  else ((relations schema root maxDepth).find? (·.target = name)).map (·.depth)

/-- The walk first meets an entity with the last step that the limit allows, and does not go on from
there. A limit of 255 is none. -/
def CutOff (schema : Schema) (root : Entity) (maxDepth : UInt8) (name : String) : Prop :=
  maxDepth ≠ 255 ∧ metAt? schema root maxDepth name = some maxDepth.toNat

theorem walks_limited (schema : Schema) (root : Entity) (maxDepth : UInt8) :
    Walks schema maxDepth.toNat [root.simpleName] (relationsAt maxDepth.toNat root "" 1)
      (relations schema root maxDepth) :=
  walks _ _ _ _

theorem mem_relationsAt_root (h : p ∈ relationsAt m root "" 1) :
    p.depth = 1 ∧ 1 ≤ m ∧ p.relation ∈ root.relations := by
  unfold relationsAt at h
  split at h
  · cases h
  · obtain ⟨r, hr, rfl⟩ := List.mem_map.1 h
    exact ⟨rfl, by omega, hr⟩

theorem exists_mem_relationsAt_root {r : Relation} (hm : 1 ≤ m) (hr : r ∈ root.relations) :
    ∃ p ∈ relationsAt m root "" 1, p.relation = r := by
  unfold relationsAt
  rw [if_neg (by omega)]
  exact ⟨_, List.mem_map_of_mem hr, rfl⟩

theorem depth_le_limit (h : p ∈ relations schema root maxDepth) : p.depth ≤ maxDepth.toNat := by
  apply (walks_limited schema root maxDepth).depth_le _ p h
  intro q hq
  obtain ⟨hdepth, hm, -⟩ := mem_relationsAt_root hq
  omega

/-- What is planned one step from the root is a relation of the root. -/
theorem mem_relations_of_direct (h : p ∈ relations schema root maxDepth) (hdepth : p.depth ≤ 1) :
    1 ≤ maxDepth.toNat ∧ p.relation ∈ root.relations := by
  have hall : ∀ p ∈ relations schema root maxDepth, 1 ≤ p.depth ∧
      (p.depth ≤ 1 → 1 ≤ maxDepth.toNat ∧ p.relation ∈ root.relations) := by
    refine (walks_limited schema root maxDepth).forall_out ?_ ?_
    · intro q hq
      obtain ⟨hq, hm, hr⟩ := mem_relationsAt_root hq
      exact ⟨by omega, fun _ => ⟨hm, hr⟩⟩
    · rintro p e - ⟨hp, -⟩ - q hq
      have hdeeper : q.depth = min (p.depth + 1) 255 := depth_of_mem_onward hq
      exact ⟨by omega, by omega⟩
  exact (hall p h).2 hdepth

/-- The targets of the root's relations are planned whenever a step is allowed. -/
theorem target_planned_of_direct {r : Relation} (hm : 1 ≤ maxDepth.toNat)
    (hr : r ∈ root.relations) :
    simpleName r.target ∈ (relations schema root maxDepth).map Pending.target := by
  obtain ⟨p, hp, rfl⟩ := exists_mem_relationsAt_root hm hr
  have hdepth : p.depth ≤ 1 := Nat.le_of_eq (mem_relationsAt_root hp).1
  exact List.mem_map.2 ⟨p, (walks_limited schema root maxDepth).mem_of_direct hp hdepth, rfl⟩

/-- The walk goes on from the root unless no step is allowed. -/
theorem not_cutOff_root : ¬ CutOff schema root maxDepth root.simpleName ↔ 1 ≤ maxDepth.toNat := by
  have hmet : metAt? schema root maxDepth root.simpleName = some 0 := if_pos rfl
  have hlimit : maxDepth ≠ 255 ↔ maxDepth.toNat ≠ 255 := by
    rw [Ne, ← UInt8.toNat_inj]
    rfl
  rw [CutOff, hmet, hlimit, Option.some_inj]
  omega

/-- The walk goes on from any other entity when the limit leaves a step behind the first meeting. -/
theorem not_cutOff_iff (h : FirstMet [root.simpleName] (relations schema root maxDepth) p) :
    ¬ CutOff schema root maxDepth p.target ↔ HasStep maxDepth.toNat p := by
  have hmet : metAt? schema root maxDepth p.target = some p.depth := by
    have hother : ¬ p.target = root.simpleName := fun e => h.1 (List.mem_singleton.2 e)
    rw [metAt?, if_neg hother, h.2]
    rfl
  have hlimit : maxDepth ≠ 255 ↔ maxDepth.toNat ≠ 255 := by
    rw [Ne, ← UInt8.toNat_inj]
    rfl
  have hdepth := depth_le_limit h.mem
  have hsize := maxDepth.toNat_lt
  rw [CutOff, hmet, hlimit, Option.some_inj, HasStep]
  omega

/-- A plan holds exactly the names that relations lead to without passing an entity where the walk
is cut off. -/
theorem reachesThrough_iff_planned (hroot : root ∈ schema.toList) (maxDepth : UInt8)
    (name : String) :
    (name = root.simpleName ∨ name ∈ (relations schema root maxDepth).map Pending.target) ↔
      ReachesThrough schema (fun n => ¬ CutOff schema root maxDepth n) root.simpleName name := by
  have hwalks := walks_limited schema root maxDepth
  have hentity := Schema.entity?_of_mem hroot
  constructor
  · have hdeclared : ∀ p ∈ relations schema root maxDepth, DeclaredThrough schema
        (fun n => ¬ CutOff schema root maxDepth n) root.simpleName p := by
      refine hwalks.forall_out ?_ ?_
      · intro p hp
        obtain ⟨-, hm, hr⟩ := mem_relationsAt_root hp
        exact ⟨root.simpleName, root, .refl, not_cutOff_root.2 hm, hentity, hr⟩
      · intro p e hfirst hp he q hq
        have hpass := (not_cutOff_iff hfirst).2 (hasStep_of_mem_onward hq).1
        exact ⟨p.target, e, hp.reaches, hpass, he, (mem_onward hq).1⟩
    rintro (rfl | hname)
    · exact .refl
    · obtain ⟨p, hp, rfl⟩ := List.mem_map.1 hname
      exact (hdeclared p hp).reaches
  · intro hname
    have hcovered : Covered [root.simpleName] (relations schema root maxDepth) name := by
      induction hname with
      | refl => exact .inl (.head _)
      | @step name e r _ hpass he hr ih =>
        apply hwalks.covered_target ih _ _ he hr
        · intro hvisited
          obtain rfl := List.mem_singleton.1 hvisited
          obtain rfl := Option.some.inj (hentity.symm.trans he)
          obtain ⟨p, hp, rfl⟩ := exists_mem_relationsAt_root (not_cutOff_root.1 hpass) hr
          exact .inr ⟨p, hp, rfl⟩
        · rintro p hfirst rfl
          exact (not_cutOff_iff hfirst).1 hpass
    simpa [Covered] using hcovered

/-- A limit that is at least the number of entities makes no difference to what is planned. -/
theorem relations_unlimited (hroot : root ∈ schema.toList)
    (h : maxDepth = 255 ∨ schema.size ≤ maxDepth.toNat) :
    relations schema root maxDepth = relations schema root 255 :=
  (walks_relations hroot h).unique (walks_relations hroot (.inl rfl))

/-! ## Higher limits -/

/-- A name that is planned with a limit is planned with a higher one exactly when some relations
lead to it without passing an entity where the longer walk is cut off. None is lost from a plan of
one step, nor to a plan without limit. -/
theorem deeper_plan_keeps_iff (hroot : root ∈ schema.toList) {maxDepth maxDepth' : UInt8}
    (hle : maxDepth ≤ maxDepth')
    (h : name ∈ (relations schema root maxDepth).map Pending.target) :
    (name ∈ (relations schema root maxDepth').map Pending.target ↔
      ReachesThrough schema (fun n => ¬ CutOff schema root maxDepth' n) root.simpleName name) ∧
    (maxDepth ≤ 1 ∨ maxDepth' = 255 ∨ schema.size ≤ maxDepth'.toNat →
      name ∈ (relations schema root maxDepth').map Pending.target) := by
  have hle' : maxDepth.toNat ≤ maxDepth'.toNat := hle
  -- What is planned one step from the root is planned with every higher limit.
  have hdirect : ∀ p ∈ relations schema root maxDepth, p.depth ≤ 1 →
      p.target ∈ (relations schema root maxDepth').map Pending.target := by
    intro p hp hdepth
    obtain ⟨hm, hr⟩ := mem_relations_of_direct hp hdepth
    exact target_planned_of_direct (Nat.le_trans hm hle') hr
  -- The root itself can only be planned there.
  have hloop : name = root.simpleName →
      name ∈ (relations schema root maxDepth').map Pending.target := by
    obtain ⟨p, hp, rfl⟩ := List.mem_map.1 h
    intro hname
    apply hdirect p hp
    exact (walks_limited schema root maxDepth).depth_le_one hp (List.mem_singleton.2 hname)
  refine ⟨⟨fun hname => (reachesThrough_iff_planned hroot _ _).1 (.inr hname), ?_⟩, ?_⟩
  · intro hname
    rcases (reachesThrough_iff_planned hroot _ _).2 hname with hname | hname
    · exact hloop hname
    · exact hname
  · rintro (hone | hnone)
    · obtain ⟨p, hp, rfl⟩ := List.mem_map.1 h
      have hdepth : p.depth ≤ maxDepth.toNat := depth_le_limit hp
      have hone' : maxDepth.toNat ≤ 1 := hone
      exact hdirect p hp (Nat.le_trans hdepth hone')
    · have hname := (reachesThrough_iff_planned hroot _ _).1 (.inr h)
      have hname' : ReachesThrough schema (fun n => ¬ CutOff schema root 255 n) root.simpleName
          name := hname.mono fun _ _ hcut => hcut.1 rfl
      rw [relations_unlimited hroot hnone] at hloop ⊢
      rcases (reachesThrough_iff_planned hroot _ _).2 hname' with hname | hname
      · exact hloop hname
      · exact hname

/-- A country is one step away, and three steps by way of a customer's city. Two steps allow its
currency; with three the walk meets the country at the end of the longer way and stops there. -/
theorem deeper_plan_loses :
    let order : Entity :=
      ⟨"Order", [⟨"customer", "Customer", .one⟩, ⟨"country", "Country", .one⟩]⟩
    let schema := Schema.ofList [order, ⟨"Customer", [⟨"city", "City", .one⟩]⟩,
      ⟨"City", [⟨"country", "Country", .one⟩]⟩, ⟨"Country", [⟨"currency", "Currency", .one⟩]⟩]
    order ∈ schema.toList ∧ (2 : UInt8) ≤ 3 ∧
      "Currency" ∈ (relations schema order 2).map Pending.target ∧
      "Currency" ∉ (relations schema order 3).map Pending.target := by
  intro order schema
  refine ⟨by decide, by decide, ?_, ?_⟩
  · rw [relations, walk_eq_walkWithin 5 (by decide)]
    decide
  · rw [relations, walk_eq_walkWithin 5 (by decide)]
    decide

/-- The same entities: the currency is lost because it lies only behind the country, where the
longer walk is cut off. -/
theorem deeper_plan_keeps_iff_crossing :
    let order : Entity :=
      ⟨"Order", [⟨"customer", "Customer", .one⟩, ⟨"country", "Country", .one⟩]⟩
    let schema := Schema.ofList [order, ⟨"Customer", [⟨"city", "City", .one⟩]⟩,
      ⟨"City", [⟨"country", "Country", .one⟩]⟩, ⟨"Country", [⟨"currency", "Currency", .one⟩]⟩]
    order ∈ schema.toList ∧ (2 : UInt8) ≤ 3 ∧
      "Currency" ∈ (relations schema order 2).map Pending.target ∧
      CutOff schema order 3 "Country" ∧
      ("Currency" ∈ (relations schema order 3).map Pending.target ↔
        ReachesThrough schema (fun n => ¬ CutOff schema order 3 n) order.simpleName "Currency") ∧
      ((2 : UInt8) ≤ 1 ∨ (3 : UInt8) = 255 ∨ schema.size ≤ (3 : UInt8).toNat →
        "Currency" ∈ (relations schema order 3).map Pending.target) := by
  intro order schema
  have horder : order ∈ schema.toList := by decide
  have hplanned : "Currency" ∈ (relations schema order 2).map Pending.target := by
    rw [relations, walk_eq_walkWithin 5 (by decide)]
    decide
  have hcut : CutOff schema order 3 "Country" := by
    refine ⟨by decide, ?_⟩
    rw [metAt?, relations, walk_eq_walkWithin 5 (by decide)]
    decide
  exact ⟨horder, by decide, hplanned, hcut, deeper_plan_keeps_iff horder (by decide) hplanned⟩

end QueryCriteria.FetchPlan
