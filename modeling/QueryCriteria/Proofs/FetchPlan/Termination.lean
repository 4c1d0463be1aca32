import Mathlib.Data.Finset.Card
import QueryCriteria.Proofs.FetchPlan.Preorder
/-!
# How long the walk takes

The walk is run here one pending relation at a time, with a record of the entities that it has
entered. It enters an entity only by a name that has not been visited, so each at most once, and
the root never again (`Walker.Sound`). The relations of entities that are yet to be entered, with
those that are pending, are fewer after every step (`Walker.Steps.cost`). So the walk ends within as
many steps as there are declared relations, on every schema and under every limit, and the plan is
no longer than the relations of the root and the names that relations lead to (`walk_ends`).
-/

namespace QueryCriteria.FetchPlan

variable {schema : Schema} {m : Nat} {visited : List String} {pending out : List Pending}
  {p : Pending} {e root : Entity}

/-! ## Single steps -/

/-- The walk between two steps: what it has visited, what is pending, what it has planned so far,
and the entities it has entered. -/
structure Walker where
  visited : List String
  pending : List Pending
  planned : List Pending
  entered : List Entity

namespace Walker

/-- The walk when it has entered the root. -/
def start (m : Nat) (root : Entity) : Walker :=
  ⟨[root.simpleName], relationsAt m root "" 1, [], [root]⟩

/-- Looks at the next pending relation, when there is one. -/
def step (schema : Schema) (m : Nat) : Walker → Walker
  | ⟨visited, [], planned, entered⟩ => ⟨visited, [], planned, entered⟩
  | ⟨visited, p :: rest, planned, entered⟩ =>
    if p.target ∈ visited then
      ⟨visited, rest, planned ++ (if 1 < p.depth then [] else [p]), entered⟩
    else match schema.entity? p.target with
      | some e => ⟨p.target :: visited, p.onward m e ++ rest, planned ++ [p], entered ++ [e]⟩
      | none => ⟨p.target :: visited, rest, planned ++ [p], entered⟩

/-- What a step does. -/
inductive Steps (schema : Schema) (m : Nat) : Walker → Walker → Prop
  | done {visited : List String} {planned : List Pending} {entered : List Entity} :
    Steps schema m ⟨visited, [], planned, entered⟩ ⟨visited, [], planned, entered⟩
  | again {visited : List String} {p : Pending} {rest planned : List Pending}
    {entered : List Entity} (h : p.target ∈ visited) :
    Steps schema m ⟨visited, p :: rest, planned, entered⟩
      ⟨visited, rest, planned ++ (if 1 < p.depth then [] else [p]), entered⟩
  | found {visited : List String} {p : Pending} {e : Entity} {rest planned : List Pending}
    {entered : List Entity} (h : p.target ∉ visited) (he : schema.entity? p.target = some e) :
    Steps schema m ⟨visited, p :: rest, planned, entered⟩
      ⟨p.target :: visited, p.onward m e ++ rest, planned ++ [p], entered ++ [e]⟩
  | missing {visited : List String} {p : Pending} {rest planned : List Pending}
    {entered : List Entity} (h : p.target ∉ visited) (he : schema.entity? p.target = none) :
    Steps schema m ⟨visited, p :: rest, planned, entered⟩
      ⟨p.target :: visited, rest, planned ++ [p], entered⟩

theorem steps (schema : Schema) (m : Nat) (w : Walker) : Steps schema m w (w.step schema m) := by
  obtain ⟨visited, pending, planned, entered⟩ := w
  cases pending with
  | nil => exact .done
  | cons p rest =>
    rw [step]
    split
    · next h => exact .again h
    · next h =>
      split
      · next he => exact .found h he
      · next he => exact .missing h he

variable {w w' : Walker}

theorem step_of_pending_eq_nil (h : w.pending = []) : w.step schema m = w := by
  obtain ⟨visited, pending, planned, entered⟩ := w
  obtain rfl : pending = [] := h
  rfl

/-- What has been planned so far and what the walk plans from here is the same after a step. -/
theorem Steps.walk (h : Steps schema m w w') :
    w'.planned ++ FetchPlan.walk schema m w'.visited w'.pending =
      w.planned ++ FetchPlan.walk schema m w.visited w.pending := by
  have hrest := walks schema m w'.visited w'.pending
  cases h with
  | done => rfl
  | again h => rw [(walks _ _ _ _).unique (.again h hrest), List.append_assoc]
  | found h he => rw [(walks _ _ _ _).unique (.found h he hrest), List.append_assoc]; rfl
  | missing h he => rw [(walks _ _ _ _).unique (.missing h he hrest), List.append_assoc]; rfl

/-! ## Entities are entered once -/

/-- The entities that have been entered are registered, their names have been visited, and no two
have the same name. -/
structure Sound (schema : Schema) (w : Walker) : Prop where
  registered : ∀ e ∈ w.entered, e ∈ schema.toList
  visited : ∀ e ∈ w.entered, e.simpleName ∈ w.visited
  distinct : (w.entered.map Entity.simpleName).Nodup

theorem sound_start (hroot : root ∈ schema.toList) : Sound schema (start m root) where
  registered := List.forall_mem_singleton.2 hroot
  visited := List.forall_mem_singleton.2 (.head _)
  distinct := List.nodup_singleton _

theorem Steps.sound (h : Steps schema m w w') (hw : Sound schema w) : Sound schema w' := by
  obtain ⟨hregistered, hvisited, hdistinct⟩ := hw
  cases h with
  | done => exact ⟨hregistered, hvisited, hdistinct⟩
  | again h => exact ⟨hregistered, hvisited, hdistinct⟩
  | missing h he => exact ⟨hregistered, fun e he => .tail _ (hvisited e he), hdistinct⟩
  | @found visited p e _ _ entered h he =>
    have hname : e.simpleName = p.target :=
      (Schema.simpleName_of_entity? he).trans (simpleName_simpleName _)
    have hnew : e.simpleName ∉ entered.map Entity.simpleName := by
      intro hmem
      obtain ⟨e', he', heq⟩ := List.mem_map.1 hmem
      exact h (hname ▸ heq ▸ hvisited e' he')
    constructor
    · exact List.forall_mem_append.2
        ⟨hregistered, List.forall_mem_singleton.2 (Schema.mem_toList_of_entity? he)⟩
    · exact List.forall_mem_append.2 ⟨fun e' he' => .tail _ (hvisited e' he'),
        List.forall_mem_singleton.2 (hname ▸ .head _)⟩
    · rw [List.map_append, List.map_singleton, ← List.concat_eq_append]
      exact hdistinct.concat hnew

theorem Steps.exists_entered (h : Steps schema m w w') :
    ∃ more, w'.entered = w.entered ++ more := by
  cases h with
  | found h he => exact ⟨_, rfl⟩
  | _ => exact ⟨[], (List.append_nil _).symm⟩

end Walker

/-! ## Cost -/

/-- How many relations those of some entities declare whose names have not been visited. -/
def load (es : List Entity) (visited : List String) : Nat :=
  ((es.filter fun e => e.simpleName ∉ visited).flatMap (·.relations)).length

theorem load_cons (e : Entity) (es : List Entity) (visited : List String) :
    load (e :: es) visited =
      (if e.simpleName ∈ visited then 0 else e.relations.length) + load es visited := by
  unfold load
  by_cases h : e.simpleName ∈ visited <;> simp [h]

theorem load_visit_le (es : List Entity) (visited : List String) (name : String) :
    load es (name :: visited) ≤ load es visited := by
  induction es with
  | nil => exact Nat.le_refl _
  | cons e es ih =>
    rw [load_cons, load_cons]
    by_cases h : e.simpleName ∈ visited
    · simpa [h] using ih
    · by_cases hname : e.simpleName = name
      · simp only [hname, List.mem_cons, true_or, if_true, Nat.zero_add]
        omega
      · simpa [h, hname] using ih

/-- Entering an entity takes its relations off the load. -/
theorem load_visit_add_le {es : List Entity} (he : e ∈ es) (h : e.simpleName ∉ visited) :
    load es (e.simpleName :: visited) + e.relations.length ≤ load es visited := by
  induction es with
  | nil => cases he
  | cons e' es ih =>
    rw [load_cons, load_cons]
    have hle := load_visit_le es visited e.simpleName
    rcases List.mem_cons.1 he with rfl | he
    · simp only [List.mem_cons, h, or_false, if_true, if_false, Nat.zero_add]
      omega
    · have hrest := ih he
      by_cases hname : e'.simpleName = e.simpleName
      · simp only [hname, List.mem_cons, h, or_false, if_true, if_false, Nat.zero_add]
        omega
      · by_cases h' : e'.simpleName ∈ visited
        · simpa [h', hname] using hrest
        · simp only [List.mem_cons, hname, h', or_self, if_false]
          omega

/-- How many steps the walk may take yet: one for each relation that is pending, or that an entity
declares that may still be entered. -/
def Walker.cost (schema : Schema) (w : Walker) : Nat :=
  w.pending.length + load schema.toList w.visited

theorem length_relationsAt_le (m : Nat) (e : Entity) (lead : String) (depth : Nat) :
    (relationsAt m e lead depth).length ≤ e.relations.length := by
  unfold relationsAt
  split <;> simp

namespace Walker

variable {w w' : Walker}

/-- Every step leaves fewer. -/
theorem Steps.cost (h : Steps schema m w w') (hpending : w.pending ≠ []) :
    w'.cost schema < w.cost schema := by
  unfold Walker.cost
  cases h with
  | done => exact absurd rfl hpending
  | again h => simp
  | @found visited p e rest _ _ h he =>
    have hname : e.simpleName = p.target :=
      (Schema.simpleName_of_entity? he).trans (simpleName_simpleName _)
    have hload := load_visit_add_le (Schema.mem_toList_of_entity? he) (hname ▸ h)
    have hlength : (p.onward m e).length ≤ e.relations.length := length_relationsAt_le _ _ _ _
    rw [hname] at hload
    simp only [List.length_append, List.length_cons]
    omega
  | @missing visited p rest _ _ h he =>
    have hload := load_visit_le schema.toList visited p.target
    simp only [List.length_cons]
    omega

/-- What every step keeps, any number of steps keeps. -/
theorem iterate_keeps {P : Walker → Prop} (hstep : ∀ w w', Steps schema m w w' → P w → P w')
    (hw : P w) (n : Nat) : P ((step schema m)^[n] w) := by
  induction n generalizing w with
  | zero => exact hw
  | succ n ih =>
    rw [Function.iterate_succ_apply]
    exact ih (hstep _ _ (steps schema m w) hw)

/-- As many steps as the walk may take bring it to its end. -/
theorem pending_iterate {n : Nat} (h : w.cost schema ≤ n) :
    ((step schema m)^[n] w).pending = [] := by
  induction n generalizing w with
  | zero =>
    have hlength : w.pending.length + load schema.toList w.visited ≤ 0 := h
    exact List.length_eq_zero_iff.1 (Nat.add_eq_zero_iff.1 (Nat.le_zero.1 hlength)).1
  | succ n ih =>
    by_cases hpending : w.pending = []
    · rw [Function.iterate_fixed (step_of_pending_eq_nil hpending)]
      exact hpending
    · rw [Function.iterate_succ_apply]
      have hless := (steps schema m w).cost hpending
      exact ih (by omega)

end Walker

namespace Walker

theorem cost_start (hroot : root ∈ schema.toList) (m : Nat) :
    (start m root).cost schema ≤ (schema.toList.flatMap (·.relations)).length := by
  have hload : load schema.toList [root.simpleName] + root.relations.length ≤
      load schema.toList [] := load_visit_add_le hroot nofun
  have hall : load schema.toList [] = (schema.toList.flatMap (·.relations)).length := by
    simp [load]
  have hlength := length_relationsAt_le m root "" 1
  unfold cost start
  dsimp only
  omega

/-- Once nothing is pending, all that the walk plans has been planned. -/
theorem planned_iterate (w : Walker) {n : Nat} (h : ((step schema m)^[n] w).pending = []) :
    ((step schema m)^[n] w).planned = w.planned ++ FetchPlan.walk schema m w.visited w.pending := by
  have hkeeps (w₁ w₂ : Walker) (hstep : Steps schema m w₁ w₂)
      (hw : w₁.planned ++ FetchPlan.walk schema m w₁.visited w₁.pending =
        w.planned ++ FetchPlan.walk schema m w.visited w.pending) :
      w₂.planned ++ FetchPlan.walk schema m w₂.visited w₂.pending =
        w.planned ++ FetchPlan.walk schema m w.visited w.pending := hstep.walk.trans hw
  have hwalk := iterate_keeps hkeeps rfl n
  rwa [h, FetchPlan.walk, List.append_nil] at hwalk

theorem entered_iterate (w : Walker) (n : Nat) :
    ∃ more, ((step schema m)^[n] w).entered = w.entered ++ more := by
  apply iterate_keeps (P := fun w' => ∃ more, w'.entered = w.entered ++ more) _ ⟨[], by simp⟩
  rintro w₁ w₂ hstep ⟨more, hmore⟩
  obtain ⟨more', hmore'⟩ := hstep.exists_entered
  exact ⟨more ++ more', by rw [hmore', hmore, List.append_assoc]⟩

end Walker

/-! ## Plans -/

/-- Beyond the relations of the root, no two are planned that lead to the same name. -/
theorem Walks.nodup_deeper (h : Walks schema m visited pending out) :
    ((out.filter (1 < ·.depth)).map Pending.target).Nodup := by
  induction h with
  | done => exact .nil
  | again _ _ ih =>
    split
    · exact ih
    · next hdepth => simpa [hdepth] using ih
  | @found _ p _ _ _ _ _ h ih | @missing _ p _ _ _ _ h ih =>
    rw [List.filter_cons]
    split
    · refine List.nodup_cons.2 ⟨?_, ih⟩
      intro hmem
      obtain ⟨q, hq, htarget⟩ := List.mem_map.1 hmem
      obtain ⟨hq, hdeeper⟩ := List.mem_filter.1 hq
      have hdepth := h.depth_le_one hq (htarget ▸ .head _)
      exact absurd hdepth (Nat.not_le.2 (of_decide_eq_true hdeeper))
    · exact ih

/-- Nor is any that leads back to the root. -/
theorem nodup_deeper_targets (schema : Schema) (root : Entity) (maxDepth : UInt8) :
    (root.simpleName ::
      ((relations schema root maxDepth).filter (1 < ·.depth)).map Pending.target).Nodup := by
  have hwalks := walks_limited schema root maxDepth
  refine List.nodup_cons.2 ⟨?_, hwalks.nodup_deeper⟩
  intro hmem
  obtain ⟨p, hp, htarget⟩ := List.mem_map.1 hmem
  obtain ⟨hp, hdeeper⟩ := List.mem_filter.1 hp
  have hdepth := hwalks.depth_le_one hp (htarget ▸ .head _)
  exact absurd hdepth (Nat.not_le.2 (of_decide_eq_true hdeeper))

/-- One step from the root there are no more relations than the root declares. -/
theorem length_direct_le (schema : Schema) (root : Entity) (maxDepth : UInt8) :
    ((relations schema root maxDepth).filter fun p => !decide (1 < p.depth)).length ≤
      root.relations.length := by
  obtain ⟨cs, hcs, h⟩ := exists_traces schema root maxDepth
  have hdirect : ∀ c : Chain, (!decide (1 < c.pending.depth)) = decide (c.before = []) := by
    rintro ⟨before, last⟩
    cases before with
    | nil => rfl
    | cons r rs => simp [Chain.pending]
  have hfilter := List.filter_congr (l := cs) fun c _ => hdirect c
  rw [hcs, List.filter_map, List.length_map]
  refine (congrArg List.length (hfilter.trans h.filter_direct)).trans_le ?_
  refine (List.length_filter_le _ _).trans ?_
  unfold rootChains
  split <;> simp

/-- The simple names that relations of a schema lead to. -/
def targetNames (schema : Schema) : List String :=
  schema.toList.flatMap fun e => e.relations.map fun r => simpleName r.target

theorem target_mem_targetNames (hroot : root ∈ schema.toList) {maxDepth : UInt8}
    (hp : p ∈ relations schema root maxDepth) : p.target ∈ targetNames schema := by
  have hdeclared : ∀ p ∈ relations schema root maxDepth, Declared schema root.simpleName p :=
    (walks_limited schema root maxDepth).declared fun p hp =>
      ⟨root.simpleName, root, .refl, Schema.entity?_of_mem hroot, (mem_relationsAt_root hp).2.2⟩
  obtain ⟨name, e, -, he, hr⟩ := hdeclared p hp
  exact List.mem_flatMap.2 ⟨e, Schema.mem_toList_of_entity? he, List.mem_map_of_mem hr⟩

theorem length_fetchPlan_le (hroot : root ∈ schema.toList) (maxDepth : UInt8) :
    (fetchPlan schema root maxDepth).length ≤
      root.relations.length + ((targetNames schema).toFinset.erase root.simpleName).card := by
  obtain ⟨hnotMem, hnodup⟩ := List.nodup_cons.1 (nodup_deeper_targets schema root maxDepth)
  have hdeeper : ((relations schema root maxDepth).filter (1 < ·.depth)).length ≤
      ((targetNames schema).toFinset.erase root.simpleName).card := by
    rw [← List.length_map Pending.target, ← List.toFinset_card_of_nodup hnodup]
    apply Finset.card_le_card
    intro name hname
    rw [List.mem_toFinset] at hname
    refine Finset.mem_erase.2 ⟨fun heq => hnotMem (heq ▸ hname), List.mem_toFinset.2 ?_⟩
    obtain ⟨p, hp, rfl⟩ := List.mem_map.1 hname
    exact target_mem_targetNames hroot (List.mem_filter.1 hp).1
  have hdirect := length_direct_le schema root maxDepth
  rw [fetchPlan, List.length_map,
    List.length_eq_length_filter_add (fun p : Pending => decide (1 < p.depth))]
  omega

/-- On every schema and under every limit the walk ends, within as many steps as there are declared
relations. It enters the root first and no entity twice. Beyond the relations of the root it plans
no two to the same name and none to the root, which bounds the plan. -/
theorem walk_ends (hroot : root ∈ schema.toList) (maxDepth : UInt8) :
    (∃ n ≤ (schema.toList.flatMap (·.relations)).length,
      ∃ w, (Walker.step schema maxDepth.toNat)^[n] (.start maxDepth.toNat root) = w ∧
        w.pending = [] ∧ w.planned = relations schema root maxDepth ∧
        (∃ more, w.entered = root :: more) ∧ (∀ e ∈ w.entered, e ∈ schema.toList) ∧
        (w.entered.map Entity.simpleName).Nodup) ∧
      (root.simpleName ::
        ((relations schema root maxDepth).filter (1 < ·.depth)).map Pending.target).Nodup ∧
      (fetchPlan schema root maxDepth).length ≤
        root.relations.length + ((targetNames schema).toFinset.erase root.simpleName).card := by
  have hend := Walker.pending_iterate (m := maxDepth.toNat)
    (Walker.cost_start hroot maxDepth.toNat)
  have hkeeps (w w' : Walker) (hstep : Walker.Steps schema maxDepth.toNat w w')
      (hw : w.Sound schema) : w'.Sound schema := hstep.sound hw
  have hsound := Walker.iterate_keeps hkeeps (Walker.sound_start (m := maxDepth.toNat) hroot)
    (schema.toList.flatMap (·.relations)).length
  exact ⟨⟨_, Nat.le_refl _, _, rfl, hend, Walker.planned_iterate _ hend,
    Walker.entered_iterate _ _, hsound.registered, hsound.distinct⟩,
    nodup_deeper_targets schema root maxDepth, length_fetchPlan_le hroot maxDepth⟩

/-- Relations that lead back to their own entity, around a cycle and nowhere, without a limit: the
walk takes four steps at most and plans three relations of at most four. -/
theorem walk_ends_cycle :
    let item : Entity := ⟨"Item", [⟨"parent", "shop.Item", .one⟩, ⟨"tags", "Tag", .many⟩]⟩
    let schema := Schema.ofList
      [item, ⟨"Tag", [⟨"items", "Item", .many⟩, ⟨"owner", "Ghost", .one⟩]⟩]
    item ∈ schema.toList ∧
      (fetchPlan schema item 255).map (·.path) = ["parent", "tags", "tags.owner"] ∧
      (schema.toList.flatMap (·.relations)).length = 4 ∧
      item.relations.length + ((targetNames schema).toFinset.erase item.simpleName).card = 4 ∧
      (∃ n ≤ (schema.toList.flatMap (·.relations)).length,
        ∃ w, (Walker.step schema (255 : UInt8).toNat)^[n] (.start (255 : UInt8).toNat item) = w ∧
          w.pending = [] ∧ w.planned = relations schema item 255 ∧
          (∃ more, w.entered = item :: more) ∧ (∀ e ∈ w.entered, e ∈ schema.toList) ∧
          (w.entered.map Entity.simpleName).Nodup) ∧
      (fetchPlan schema item 255).length ≤
        item.relations.length + ((targetNames schema).toFinset.erase item.simpleName).card := by
  intro item schema
  have hitem : item ∈ schema.toList := by decide
  obtain ⟨hrun, -, hlength⟩ := walk_ends hitem 255
  refine ⟨hitem, ?_, by decide, by decide, hrun, hlength⟩
  rw [fetchPlan, relations, walk_eq_walkWithin 5 (by decide)]
  decide

end QueryCriteria.FetchPlan
