import QueryCriteria.FetchPlan
/-!
# What fetch plans reach

The walk plans only relations that reachable entities declare, and without a limit on the depth it
leaves no reachable entity out: what it has visited or planned is closed under relations. A limit of
at least the number of entities is none, since a step deeper takes an entity that has not been
visited. So every unlimited plan reaches exactly what the relations reach (`reaches_iff_planned`).
-/

namespace QueryCriteria.FetchPlan

variable {schema : Schema} {m : Nat} {visited : List String} {pending out : List Pending}
  {p : Pending} {start : String}

/-! ## Reachable names -/

/-- The simple names that declared relations lead to, through registered entities. -/
inductive Reaches (schema : Schema) (start : String) : String → Prop
  | refl : Reaches schema start start
  | step {name : String} {e : Entity} {r : Relation} (h : Reaches schema start name)
    (he : schema.entity? name = some e) (hr : r ∈ e.relations) :
    Reaches schema start (simpleName r.target)

/-- No relation leads out of the names. -/
def Closed (schema : Schema) (names : String → Prop) : Prop :=
  ∀ name e r, names name → schema.entity? name = some e → r ∈ e.relations →
    names (simpleName r.target)

theorem Reaches.of_closed {names : String → Prop} (hnames : Closed schema names)
    (hstart : names start) {name : String} (h : Reaches schema start name) : names name := by
  induction h with
  | refl => exact hstart
  | step _ he hr ih => exact hnames _ _ _ ih he hr

/-! ## Steps of the walk -/

/-- The walk, step by step. -/
inductive Walks (schema : Schema) (m : Nat) : List String → List Pending → List Pending → Prop
  | done {visited : List String} : Walks schema m visited [] []
  | again {visited : List String} {p : Pending} {rest out : List Pending}
    (h : p.target ∈ visited) (hrest : Walks schema m visited rest out) :
    Walks schema m visited (p :: rest) ((if 1 < p.depth then [] else [p]) ++ out)
  | found {visited : List String} {p : Pending} {e : Entity} {rest out : List Pending}
    (h : p.target ∉ visited) (he : schema.entity? p.target = some e)
    (hrest : Walks schema m (p.target :: visited) (p.onward m e ++ rest) out) :
    Walks schema m visited (p :: rest) (p :: out)
  | missing {visited : List String} {p : Pending} {rest out : List Pending}
    (h : p.target ∉ visited) (he : schema.entity? p.target = none)
    (hrest : Walks schema m (p.target :: visited) rest out) :
    Walks schema m visited (p :: rest) (p :: out)

theorem entity?_target (schema : Schema) (p : Pending) :
    schema.entity? p.target = schema.entity? p.relation.target :=
  schema.entity?_simpleName _

theorem walks (schema : Schema) (m : Nat) (visited : List String) (pending : List Pending) :
    Walks schema m visited pending (walk schema m visited pending) := by
  fun_induction walk schema m visited pending with
  | case1 => exact .done
  | case2 visited p rest h hdepth ih => simpa [hdepth] using ih.again h
  | case3 visited p rest h hdepth ih => simpa [hdepth] using ih.again h
  | case4 visited p rest h ihfound ihmissing =>
    split
    · next e he => exact .found h ((entity?_target schema p).trans he) (ihfound e he)
    · next he => exact .missing h ((entity?_target schema p).trans he) ihmissing

theorem Walks.unique {out' : List Pending} (h : Walks schema m visited pending out)
    (h' : Walks schema m visited pending out') : out = out' := by
  induction h generalizing out' with
  | done => cases h'; rfl
  | again h _ ih =>
    cases h' with
    | again _ hrest => rw [ih hrest]
    | found hnew => exact absurd h hnew
    | missing hnew => exact absurd h hnew
  | found h he _ ih =>
    cases h' with
    | again hold => exact absurd hold h
    | found _ he' hrest =>
      obtain rfl := Option.some.inj (he.symm.trans he')
      rw [ih hrest]
    | missing _ he' => cases he.symm.trans he'
  | missing h he _ ih =>
    cases h' with
    | again hold => exact absurd hold h
    | found _ he' => cases he.symm.trans he'
    | missing _ _ hrest => rw [ih hrest]

/-- What the walk plans if it ends within a number of steps; this computes by recursion on the
number. -/
def walkWithin (schema : Schema) (m : Nat) :
    Nat → List String → List Pending → Option (List Pending)
  | _, _, [] => some []
  | 0, _, _ :: _ => none
  | steps + 1, visited, p :: rest =>
    if p.target ∈ visited then
      (walkWithin schema m steps visited rest).map ((if 1 < p.depth then [] else [p]) ++ ·)
    else match schema.entity? p.target with
      | some e =>
        (walkWithin schema m steps (p.target :: visited) (p.onward m e ++ rest)).map (p :: ·)
      | none => (walkWithin schema m steps (p.target :: visited) rest).map (p :: ·)

theorem walks_of_walkWithin {steps : Nat}
    (h : walkWithin schema m steps visited pending = some out) :
    Walks schema m visited pending out := by
  induction steps generalizing visited pending out with
  | zero =>
    cases pending with
    | nil =>
      cases h
      exact .done
    | cons => cases h
  | succ steps ih =>
    cases pending with
    | nil =>
      cases h
      exact .done
    | cons p rest =>
      rw [walkWithin] at h
      split at h
      · next hold =>
        obtain ⟨out, hout, rfl⟩ := Option.map_eq_some_iff.1 h
        exact .again hold (ih hout)
      · next hnew =>
        split at h
        · next he =>
          obtain ⟨out, hout, rfl⟩ := Option.map_eq_some_iff.1 h
          exact .found hnew he (ih hout)
        · next he =>
          obtain ⟨out, hout, rfl⟩ := Option.map_eq_some_iff.1 h
          exact .missing hnew he (ih hout)

/-- A walk that ends within a number of steps can be computed. -/
theorem walk_eq_walkWithin (steps : Nat)
    (h : (walkWithin schema m steps visited pending).isSome) :
    walk schema m visited pending = (walkWithin schema m steps visited pending).getD [] := by
  obtain ⟨out, hout⟩ := Option.isSome_iff_exists.1 h
  rw [hout]
  exact (walks schema m visited pending).unique (walks_of_walkWithin hout)

/-- What is pending behind a relation leads out of its entity, one step deeper. -/
theorem mem_onward {e : Entity} {q : Pending} (h : q ∈ p.onward m e) :
    q.relation ∈ e.relations ∧ q.depth ≤ p.depth + 1 := by
  unfold Pending.onward relationsAt at h
  split at h
  · cases h
  · obtain ⟨r, hr, rfl⟩ := List.mem_map.1 h
    exact ⟨hr, Nat.min_le_left _ _⟩

theorem depth_of_mem_onward {e : Entity} {q : Pending} (h : q ∈ p.onward m e) :
    q.depth = min (p.depth + 1) 255 := by
  unfold Pending.onward relationsAt at h
  split at h
  · cases h
  · obtain ⟨r, -, rfl⟩ := List.mem_map.1 h
    rfl

/-- The limit leaves a step behind the relation. A limit of 255 always does. -/
def HasStep (m : Nat) (p : Pending) : Prop := p.depth < m ∨ 255 ≤ m

/-- What is pending behind a relation is within the limit. -/
theorem hasStep_of_mem_onward {e : Entity} {q : Pending} (h : q ∈ p.onward m e) :
    HasStep m p ∧ q.depth ≤ m := by
  unfold Pending.onward relationsAt at h
  split at h
  · cases h
  · next hlimit =>
    obtain ⟨r, -, rfl⟩ := List.mem_map.1 h
    have hdepth : min (p.depth + 1) 255 ≤ m := Nat.le_of_not_lt hlimit
    refine ⟨?_, hdepth⟩
    unfold HasStep
    omega

/-- Where the limit leaves a step, all that leads out of the entity is pending. -/
theorem exists_mem_onward {e : Entity} {r : Relation} (hp : HasStep m p) (h : r ∈ e.relations) :
    ∃ q ∈ p.onward m e, q.relation = r := by
  have hlimit : ¬ m < min (p.depth + 1) 255 := by
    unfold HasStep at hp
    omega
  unfold Pending.onward relationsAt
  rw [if_neg hlimit]
  exact ⟨_, List.mem_map_of_mem h, rfl⟩

/-- A step within the limit is taken as if there were none. -/
theorem onward_eq (e : Entity) (h : p.depth + 1 ≤ m) : p.onward m e = p.onward 255 e := by
  have hlimit : ¬ m < min (p.depth + 1) 255 := by omega
  have hnone : ¬ 255 < min (p.depth + 1) 255 := by omega
  rw [Pending.onward, Pending.onward, relationsAt, relationsAt, if_neg hlimit, if_neg hnone]

/-! ## First meetings -/

/-- The walk meets an entity that has not been visited, for the first time by this relation. -/
def FirstMet (visited : List String) (out : List Pending) (p : Pending) : Prop :=
  p.target ∉ visited ∧ out.find? (·.target = p.target) = some p

theorem FirstMet.mem (h : FirstMet visited out p) : p ∈ out := List.mem_of_find?_eq_some h.2

theorem exists_firstMet (h : p ∈ out) (hnew : p.target ∉ visited) :
    ∃ q, FirstMet visited out q ∧ q.target = p.target := by
  obtain ⟨q, hq⟩ : ∃ q, out.find? (·.target = p.target) = some q := by
    rw [← Option.isSome_iff_exists, List.find?_isSome]
    exact ⟨p, h, by simp⟩
  have htarget : q.target = p.target := by simpa using List.find?_some hq
  exact ⟨q, ⟨by rwa [htarget], by rwa [htarget]⟩, htarget⟩

/-- A relation to an entity that has not been visited is the first to meet it, and the first
meetings behind it are those of other entities. -/
theorem firstMet_cons {q : Pending} (h : p.target ∉ visited) :
    FirstMet visited (p :: out) q ↔ q = p ∨ FirstMet (p.target :: visited) out q := by
  by_cases ht : p.target = q.target
  · constructor
    · intro hq
      exact .inl (by simpa [ht] using hq.2.symm)
    · rintro (rfl | hq)
      · exact ⟨h, by simp⟩
      · exact absurd (ht ▸ List.mem_cons_self) hq.1
  · have ht' : ¬ q.target = p.target := fun e => ht e.symm
    have hne : q.target ∉ p.target :: visited ↔ q.target ∉ visited := by simp [ht']
    have hqp : q ≠ p := by
      rintro rfl
      exact ht rfl
    rw [FirstMet, FirstMet, hne, List.find?_cons_of_neg (by simpa using ht)]
    simp [hqp]

/-- A relation to what has been visited makes no difference to first meetings. -/
theorem firstMet_again {q : Pending} (h : p.target ∈ visited) :
    FirstMet visited ((if 1 < p.depth then [] else [p]) ++ out) q ↔ FirstMet visited out q := by
  split
  · rfl
  · unfold FirstMet
    refine and_congr_right fun hq => ?_
    have ht : ¬ p.target = q.target := by
      intro e
      exact hq (e ▸ h)
    rw [List.singleton_append, List.find?_cons_of_neg (by simpa using ht)]

/-! ## Soundness -/

/-- What holds of all that is pending, and is passed on behind a relation that is the first to meet
its entity, holds of all that is planned. -/
theorem Walks.forall_out {Q : Pending → Prop} (h : Walks schema m visited pending out)
    (hpending : ∀ p ∈ pending, Q p)
    (honward : ∀ p e, FirstMet visited out p → Q p → schema.entity? p.target = some e →
      ∀ q ∈ p.onward m e, Q q) : ∀ p ∈ out, Q p := by
  induction h with
  | done => exact hpending
  | again h _ ih =>
    obtain ⟨hp, hrest⟩ := List.forall_mem_cons.1 hpending
    have hout := ih hrest fun q e hq => honward q e ((firstMet_again h).2 hq)
    intro q hq
    split at hq
    · exact hout q hq
    · rcases List.mem_cons.1 hq with rfl | hq
      · exact hp
      · exact hout q hq
  | @found _ p e _ _ h he _ ih =>
    obtain ⟨hp, hrest⟩ := List.forall_mem_cons.1 hpending
    refine List.forall_mem_cons.2 ⟨hp, ih ?_ ?_⟩
    · intro q hq
      rcases List.mem_append.1 hq with hq | hq
      · exact honward p e ((firstMet_cons h).2 (.inl rfl)) hp he q hq
      · exact hrest q hq
    · intro q e hq
      exact honward q e ((firstMet_cons h).2 (.inr hq))
  | missing h _ _ ih =>
    obtain ⟨hp, hrest⟩ := List.forall_mem_cons.1 hpending
    refine List.forall_mem_cons.2 ⟨hp, ih hrest ?_⟩
    intro q e hq
    exact honward q e ((firstMet_cons h).2 (.inr hq))

/-- The relation is declared by an entity that is reachable. -/
def Declared (schema : Schema) (start : String) (p : Pending) : Prop :=
  ∃ name e, Reaches schema start name ∧ schema.entity? name = some e ∧ p.relation ∈ e.relations

theorem Declared.reaches (h : Declared schema start p) : Reaches schema start p.target := by
  obtain ⟨name, e, hname, he, hr⟩ := h
  exact hname.step he hr

/-- Where declared relations are pending, only declared relations are planned. -/
theorem Walks.declared (h : Walks schema m visited pending out)
    (hpending : ∀ p ∈ pending, Declared schema start p) : ∀ p ∈ out, Declared schema start p := by
  apply h.forall_out hpending
  intro p e _ hp he q hq
  exact ⟨p.target, e, hp.reaches, he, (mem_onward hq).1⟩

/-! ## Completeness -/

/-- A name that has been visited or that one of some relations leads to. -/
def Covered (visited : List String) (relations : List Pending) (name : String) : Prop :=
  name ∈ visited ∨ ∃ p ∈ relations, p.target = name

/-- Whatever a visited entity leads to has been visited or is pending. -/
def Frontier (schema : Schema) (visited : List String) (pending : List Pending) : Prop :=
  ∀ name ∈ visited, ∀ e r, schema.entity? name = some e → r ∈ e.relations →
    Covered visited pending (simpleName r.target)

/-- A relation covers its target as much as if that had been visited. -/
theorem covered_cons : Covered visited (p :: out) = Covered (p.target :: visited) out := by
  funext name
  simp only [Covered, List.mem_cons, exists_eq_or_imp, eq_iff_iff]
  constructor
  · rintro (h | h | h)
    · exact .inl (.inr h)
    · exact .inl (.inl h.symm)
    · exact .inr h
  · rintro ((h | h) | h)
    · exact .inr (.inl h.symm)
    · exact .inl h
    · exact .inr (.inr h)

theorem Covered.append_left {name : String} (h : Covered visited out name) (more : List Pending) :
    Covered visited (more ++ out) name := by
  rcases h with h | ⟨q, hq, h⟩
  · exact .inl h
  · exact .inr ⟨q, List.mem_append_right _ hq, h⟩

/-- The walk covers what is pending, and what is pending behind every first meeting. -/
theorem Walks.covers (h : Walks schema m visited pending out) :
    (∀ p ∈ pending, Covered visited out p.target) ∧
      ∀ p e, FirstMet visited out p → schema.entity? p.target = some e →
        ∀ q ∈ p.onward m e, Covered visited out q.target := by
  induction h with
  | done => exact ⟨nofun, fun _ _ h => nomatch h.mem⟩
  | again h _ ih =>
    refine ⟨List.forall_mem_cons.2 ⟨.inl h, ?_⟩, ?_⟩
    · intro q hq
      exact (ih.1 q hq).append_left _
    · intro p e hp he q hq
      exact (ih.2 p e ((firstMet_again h).1 hp) he q hq).append_left _
  | @found visited p e rest out h he _ ih =>
    rw [covered_cons]
    refine ⟨List.forall_mem_cons.2 ⟨.inl (.head _), ?_⟩, ?_⟩
    · intro q hq
      exact ih.1 q (List.mem_append_right _ hq)
    · intro p' e' hp he' q hq
      rcases (firstMet_cons h).1 hp with rfl | hp
      · -- The entity that has just been entered has its relations pending.
        obtain rfl := Option.some.inj (he.symm.trans he')
        exact ih.1 q (List.mem_append_left _ hq)
      · exact ih.2 p' e' hp he' q hq
  | @missing visited p rest out h he _ ih =>
    rw [covered_cons]
    refine ⟨List.forall_mem_cons.2 ⟨.inl (.head _), ih.1⟩, ?_⟩
    intro p' e' hp he' q hq
    rcases (firstMet_cons h).1 hp with rfl | hp
    · cases he.symm.trans he'
    · exact ih.2 p' e' hp he' q hq

/-- A relation out of a name that the walk covers is covered too: one out of a visited name when it
is pending, any other unless the limit stops the walk where it first meets the name. -/
theorem Walks.covered_target (h : Walks schema m visited pending out) {name : String} {e : Entity}
    {r : Relation} (hname : Covered visited out name)
    (hold : name ∈ visited → Covered visited pending (simpleName r.target))
    (hnew : ∀ p, FirstMet visited out p → p.target = name → HasStep m p)
    (he : schema.entity? name = some e) (hr : r ∈ e.relations) :
    Covered visited out (simpleName r.target) := by
  by_cases hvisited : name ∈ visited
  · rcases hold hvisited with hr | ⟨p, hp, hr⟩
    · exact .inl hr
    · exact hr ▸ h.covers.1 p hp
  · obtain ⟨p, hp, rfl⟩ := hname.resolve_left hvisited
    obtain ⟨q, hq, htarget⟩ := exists_firstMet hp hvisited
    obtain ⟨p', hp', rfl⟩ := exists_mem_onward (hnew q hq htarget) hr
    exact h.covers.2 q e hq (htarget ▸ he) p' hp'

/-- Without a limit, no relation leads out of what the walk covers. -/
theorem Walks.closed (h : Walks schema 255 visited pending out)
    (hfrontier : Frontier schema visited pending) : Closed schema (Covered visited out) := by
  intro name e r hname he hr
  apply h.covered_target hname _ _ he hr
  · intro hvisited
    exact hfrontier name hvisited e r he hr
  · intro p _ _
    exact .inr (Nat.le_refl _)

/-! ## Limits -/

/-- The limit leaves a step for every entity that has not been visited. -/
structure Roomy (schema : Schema) (m : Nat) (visited : List String) (pending : List Pending) :
    Prop where
  size : schema.size ≤ m
  depth : ∀ p ∈ pending, p.depth + unvisited schema visited ≤ schema.size

theorem unvisited_cons_le (schema : Schema) (visited : List String) (name : String) :
    unvisited schema (name :: visited) ≤ unvisited schema visited :=
  countP_notMem_cons_le _ _ _

theorem unvisited_cons_lt {e : Entity} {name : String} (h : name ∉ visited)
    (he : schema.entity? name = some e) (hsimple : simpleName name = name) :
    unvisited schema (name :: visited) < unvisited schema visited := by
  have hget : schema.entities.get? name = some e := by
    rw [← hsimple]
    exact he
  exact countP_notMem_cons_lt (OrderedMap.mem_keys_of_get? hget) h

/-- A walk with room for every step goes as if there were no limit. -/
theorem Walks.unlimited (h : Walks schema m visited pending out)
    (hroomy : Roomy schema m visited pending) : Walks schema 255 visited pending out := by
  induction h with
  | done => exact .done
  | again h _ ih => exact .again h (ih ⟨hroomy.size, (List.forall_mem_cons.1 hroomy.depth).2⟩)
  | @found visited p e rest out h he _ ih =>
    obtain ⟨hp, hrest⟩ := List.forall_mem_cons.1 hroomy.depth
    have hfewer := unvisited_cons_lt h he (simpleName_simpleName _)
    have hsize := hroomy.size
    have hroomy' : Roomy schema m (p.target :: visited) (p.onward m e ++ rest) := by
      refine ⟨hsize, ?_⟩
      intro q hq
      rcases List.mem_append.1 hq with hq | hq
      · have hdepth := (mem_onward hq).2
        omega
      · have hdepth := hrest q hq
        omega
    refine .found h he ?_
    rw [← onward_eq e (m := m) (by omega)]
    exact ih hroomy'
  | @missing visited p rest out h he _ ih =>
    obtain ⟨-, hrest⟩ := List.forall_mem_cons.1 hroomy.depth
    have hfewer := unvisited_cons_le schema visited p.target
    refine .missing h he (ih ⟨hroomy.size, ?_⟩)
    intro q hq
    have hdepth := hrest q hq
    omega

/-! ## Plans -/

variable {root : Entity} {maxDepth : UInt8}

/-- With a registered entity visited, fewer are left than there are. -/
theorem unvisited_root_lt (hroot : root ∈ schema.toList) :
    unvisited schema [root.simpleName] < schema.size := by
  have hfewer : unvisited schema [root.simpleName] < unvisited schema [] :=
    unvisited_cons_lt List.not_mem_nil (Schema.entity?_of_mem hroot) (simpleName_simpleName _)
  have hall : unvisited schema [] ≤ schema.entities.keys.length := List.countP_le_length
  have hkeys : schema.entities.keys.length = schema.size := List.length_map _
  omega

/-- With an unlimited depth, the relations to fetch are those of a walk without limit. -/
theorem walks_relations (hroot : root ∈ schema.toList)
    (h : maxDepth = 255 ∨ schema.size ≤ maxDepth.toNat) :
    Walks schema 255 [root.simpleName] (relationsAt 255 root "" 1)
      (relations schema root maxDepth) := by
  have hwalks : Walks schema maxDepth.toNat [root.simpleName]
      (relationsAt maxDepth.toNat root "" 1) (relations schema root maxDepth) := walks _ _ _ _
  rcases h with rfl | h
  · exact hwalks
  · have hroom := unvisited_root_lt hroot
    have hstart : relationsAt maxDepth.toNat root "" 1 = relationsAt 255 root "" 1 := by
      rw [relationsAt, relationsAt, if_neg (by omega), if_neg (by omega)]
    rw [hstart] at hwalks
    apply hwalks.unlimited
    refine ⟨h, ?_⟩
    intro p hp
    obtain ⟨r, -, rfl⟩ := List.mem_map.1 hp
    show 1 + _ ≤ _
    omega

/-- With an unlimited depth, the relations to fetch lead from the root to exactly the names that are
reachable, and the limit makes no difference to the plan. -/
theorem reaches_iff_planned (hroot : root ∈ schema.toList)
    (h : maxDepth = 255 ∨ schema.size ≤ maxDepth.toNat) :
    (∀ name, (name = root.simpleName ∨
        name ∈ (relations schema root maxDepth).map Pending.target) ↔
      Reaches schema root.simpleName name) ∧
    ∀ maxDepth' : UInt8, (maxDepth' = 255 ∨ schema.size ≤ maxDepth'.toNat) →
      fetchPlan schema root maxDepth' = fetchPlan schema root maxDepth := by
  have hwalks := walks_relations hroot h
  have hentity := Schema.entity?_of_mem hroot
  have hpending : ∀ p ∈ relationsAt 255 root "" 1, Declared schema root.simpleName p := by
    intro p hp
    obtain ⟨r, hr, rfl⟩ := List.mem_map.1 hp
    exact ⟨root.simpleName, root, .refl, hentity, hr⟩
  have hfrontier : Frontier schema [root.simpleName] (relationsAt 255 root "" 1) := by
    intro name hname e r he hr
    obtain rfl := List.mem_singleton.1 hname
    obtain rfl := Option.some.inj (hentity.symm.trans he)
    exact .inr ⟨_, List.mem_map_of_mem hr, rfl⟩
  constructor
  · intro name
    constructor
    · rintro (rfl | hname)
      · exact .refl
      · obtain ⟨p, hp, rfl⟩ := List.mem_map.1 hname
        exact (hwalks.declared hpending p hp).reaches
    · intro hname
      have hcovered := hname.of_closed (hwalks.closed hfrontier) (.inl (.head _))
      simpa [Covered] using hcovered
  · intro maxDepth' h'
    rw [fetchPlan, fetchPlan, (walks_relations hroot h').unique hwalks]

/-- Two entities that refer to each other, and a target that is not registered. -/
theorem reaches_iff_planned_cycle :
    let order : Entity := ⟨"shop.Order", [⟨"lines", "shop.Line", .many⟩]⟩
    let line : Entity := ⟨"Line", [⟨"order", "Order", .one⟩, ⟨"product", "Product", .one⟩]⟩
    let schema := Schema.ofList [order, line]
    order ∈ schema.toList ∧ schema.size ≤ (2 : UInt8).toNat ∧
      schema.entity? "Product" = none ∧ Reaches schema order.simpleName "Product" ∧
      (∀ name, (name = order.simpleName ∨
          name ∈ (relations schema order 2).map Pending.target) ↔
        Reaches schema order.simpleName name) ∧
      ∀ maxDepth' : UInt8, (maxDepth' = 255 ∨ schema.size ≤ maxDepth'.toNat) →
        fetchPlan schema order maxDepth' = fetchPlan schema order 2 := by
  intro order line schema
  have horder : order ∈ schema.toList := by decide
  have hsize : schema.size ≤ (2 : UInt8).toNat := by decide
  have hline : Reaches schema order.simpleName "Line" :=
    Reaches.step (e := order) (r := ⟨"lines", "shop.Line", .many⟩) .refl (by decide) (.head _)
  have hproduct : Reaches schema order.simpleName "Product" :=
    Reaches.step (e := line) (r := ⟨"product", "Product", .one⟩) hline (by decide)
      (.tail _ (.head _))
  exact ⟨horder, hsize, by decide, hproduct, reaches_iff_planned horder (.inr hsize)⟩

end QueryCriteria.FetchPlan
