import QueryCriteria.Proofs.EntityQuery.Fetching
import QueryCriteria.Proofs.EntityQuery.Streams
import QueryCriteria.Proofs.EntityQuery.Views
/-!
# What the fetch strategy decides

The settings of a query decide its first joins and its hints. No call looks at either, except that
a join is skipped behind one of the same target, and that is no failure. So whatever the settings, a
run of calls has the same outcomes and makes the same where clause and orders; and where joins are
not used to fetch, it makes the same text (`strategy_unseen`).
-/

namespace QueryCriteria.EntityQuery

/-- The joins that a call brings. -/
def Call.joins : Call → List Criterion
  | .add _ => []
  | .addAll _ => []
  | .addOrder _ => []
  | .addOrders _ => []
  | .addJoin c => [c]
  | .addJoins cs => cs
  | .apply set => set.joins

namespace Draft

variable {d d' : Draft}

/-- The joins of the calls of a run that succeed, in order, with those that are skipped. -/
def joinsTaken (d : Draft) (calls : List Call) : List Criterion := brought perform Call.joins d calls

/-! ## Drafts without what is fetched -/

/-- The draft without its hints and, unless these are kept, without its joins. -/
def unfetched (keepsJoins : Bool) (d : Draft) : Draft :=
  { d with
    joins := if keepsJoins then d.joins else []
    joinCriteria := if keepsJoins then d.joinCriteria else []
    hints := .empty }

theorem carries_unfetched (keepsJoins : Bool) : Carries (unfetched keepsJoins) id id where
  role _ := rfl
  enclosure _ := rfl
  restrictions _ := rfl
  openGroups _ := rfl
  connective _ _ := rfl
  predicate d c := by
    change d.predicate c = _
    cases d.predicate c <;> simp [Except.map]
  taken _ _ _ value _ := by cases value <;> rfl

theorem addOrder_unfetched (keepsJoins : Bool) (d : Draft) (c : Criterion) :
    (d.unfetched keepsJoins).addOrder c = (d.addOrder c).map (unfetched keepsJoins) :=
  addOrder_map rfl (fun _ => rfl) fun _ => rfl

/-- Joins that are kept decide whether another one is skipped; the others do not show. -/
theorem pushJoin_unfetched {keepsJoins : Bool}
    (h : d.unfetched keepsJoins = d'.unfetched keepsJoins) (clause : JoinClause) (c : Criterion) :
    (d.pushJoin clause c).unfetched keepsJoins = (d'.pushJoin clause c).unfetched keepsJoins := by
  cases keepsJoins with
  | true =>
    have hpush (d : Draft) :
        (d.pushJoin clause c).unfetched true = (d.unfetched true).pushJoin clause c := by
      unfold pushJoin
      rw [apply_ite (unfetched true)]
      rfl
    rw [hpush, h, hpush]
  | false =>
    have hpush (d : Draft) : (d.pushJoin clause c).unfetched false = d.unfetched false := by
      obtain ⟨joins, joinCriteria, heq⟩ := pushJoin_eq d clause c
      rw [heq]
      rfl
    rw [hpush, h, hpush]

theorem suffices_unfetched (keepsJoins : Bool) : Suffices (unfetched keepsJoins) where
  add d d' c h := by
    have hadd := (carries_unfetched keepsJoins).add
    exact (hadd d c).symm.trans (h ▸ hadd d' c)
  addOrder d d' c h := by
    rw [← addOrder_unfetched, h, addOrder_unfetched]
  addJoin d d' c h := by
    unfold addJoin
    cases c.role with
    | error fault => rfl
    | ok role =>
      cases role with
      | join =>
        cases c.requireOperand "join" with
        | error fault => rfl
        | ok operand => exact congrArg Except.ok (pushJoin_unfetched h _ c)
      | _ => rfl

/-- What is fetched for a new draft does not show, or only in joins. -/
theorem unfetched_autoFetch (d : Draft) (schema : Schema) (root : Entity) {settings : Settings}
    {keepsJoins : Bool} (hkeeps : keepsJoins = true → settings.strategy ≠ .joinFetch) :
    (d.autoFetch schema root settings).unfetched keepsJoins = d.unfetched keepsJoins := by
  cases keepsJoins with
  | false =>
    obtain ⟨joins, joinCriteria, hints, heq⟩ := autoFetch_eq d schema root settings
    rw [heq]
    rfl
  | true =>
    have hstrategy := hkeeps rfl
    unfold autoFetch
    cases hs : settings.strategy with
    | joinFetch => exact absurd hs hstrategy
    | fetchHints => rfl
    | disabled => rfl

theorem joins_autoFetch (d : Draft) (schema : Schema) (root : Entity) {settings : Settings}
    (hstrategy : settings.strategy ≠ .joinFetch) :
    (d.autoFetch schema root settings).joins = d.joins := by
  have hunfetched : (d.autoFetch schema root settings).unfetched true = d.unfetched true :=
    unfetched_autoFetch d schema root fun _ => hstrategy
  have hjoins := congrArg joins hunfetched
  exact hjoins

theorem hints_autoFetch (d : Draft) (schema : Schema) (root : Entity) {settings : Settings}
    (hstrategy : settings.strategy ≠ .fetchHints) :
    (d.autoFetch schema root settings).hints = d.hints := by
  unfold autoFetch
  cases hs : settings.strategy with
  | fetchHints => exact absurd hs hstrategy
  | disabled => rfl
  | joinFetch =>
    unfold pushFetchJoins
    refine List.foldlRecOn (motive := fun d' : Draft => d'.hints = d.hints) _ _ rfl ?_
    rintro d' hd ⟨clause, c⟩ -
    obtain ⟨joins, joinCriteria, heq⟩ := pushJoin_eq d' clause c
    dsimp only
    rw [heq]
    exact hd

/-! ## Drafts without joins -/

theorem pushJoin_joins_ne_nil (d : Draft) (clause : JoinClause) (c : Criterion) :
    (d.pushJoin clause c).joins ≠ [] := by
  unfold pushJoin
  split
  · next hany =>
    intro hnil
    rw [hnil] at hany
    cases hany
  · exact List.append_ne_nil_of_right_ne_nil _ (List.cons_ne_nil _ _)

/-- A draft that takes joins has some. -/
theorem joins_addJoins {cs : List Criterion} (h : d.addJoins cs = .ok d') :
    d'.joins = [] ↔ d.joins = [] ∧ cs = [] := by
  cases cs with
  | nil =>
    cases h
    simp
  | cons c cs =>
    obtain ⟨d₁, h₁, h⟩ := bind_eq_ok_iff.1 h
    obtain ⟨_, -, -, rfl⟩ := addJoin_cases h₁
    have hne : d'.joins ≠ [] := by
      refine foldlM_ok_invariant (P := fun d => d.joins ≠ []) ?_ (pushJoin_joins_ne_nil d _ c) h
      intro d c d' _ h
      obtain ⟨_, -, -, rfl⟩ := addJoin_cases h
      exact pushJoin_joins_ne_nil d _ c
    simp [hne]

theorem joins_addAll {cs : List Criterion} (h : d.addAll cs = .ok d') : d'.joins = d.joins := by
  refine foldlM_ok_invariant (P := fun d' => d'.joins = d.joins) ?_ rfl h
  intro d₁ c d₂ hd h
  obtain ⟨_, _, _, -, rfl, -⟩ := add_cases h
  exact hd

theorem joins_addOrders {cs : List Criterion} (h : d.addOrders cs = .ok d') :
    d'.joins = d.joins := by
  refine foldlM_ok_invariant (P := fun d' => d'.joins = d.joins) ?_ rfl h
  intro d₁ c d₂ hd h
  obtain ⟨_, -, -, rfl⟩ := addOrder_cases h
  exact hd

theorem joins_perform {call : Call} (h : d.perform call = .ok d') :
    d'.joins = [] ↔ d.joins = [] ∧ call.joins = [] := by
  have hone {f : Draft → Criterion → Except Fault Draft} {c : Criterion} (h : f d c = .ok d') :
      [c].foldlM f d = .ok d' := by
    rw [List.foldlM_cons, h]
    rfl
  cases call with
  | add c => simp [joins_addAll (hone h), Call.joins]
  | addAll cs => simp [joins_addAll h, Call.joins]
  | addOrder c => simp [joins_addOrders (hone h), Call.joins]
  | addOrders cs => simp [joins_addOrders h, Call.joins]
  | addJoin c => exact joins_addJoins (hone h)
  | addJoins cs => exact joins_addJoins h
  | apply set =>
    obtain ⟨d₁, h₁, h⟩ := bind_eq_ok_iff.1 h
    obtain ⟨d₂, h₂, h⟩ := bind_eq_ok_iff.1 h
    rw [joins_addOrders h, joins_addAll h₂]
    exact joins_addJoins h₁

/-- A draft has no joins as long as it had none and has taken none. -/
theorem joins_run (d : Draft) (calls : List Call) :
    (d.run calls).joins = [] ↔ d.joins = [] ∧ joinsTaken d calls = [] := by
  refine brought_induct (l := [])
    (P := fun done (d' : Draft) => d'.joins = [] ↔ d.joins = [] ∧ done = [])
    (fun done d₁ call d₂ hd h => ?_) (by simp) calls
  rw [joins_perform h, hd, List.append_eq_nil_iff, and_assoc]

/-! ## Strategies -/

/-- The two drafts differ in their joins and hints at most. -/
structure SameUnfetched (d d' : Draft) : Prop where
  entity : d.entity = d'.entity
  rootAlias : d.rootAlias = d'.rootAlias
  restrictions : d.restrictions = d'.restrictions
  parameters : d.parameters = d'.parameters
  orders : d.orders = d'.orders
  openGroups : d.openGroups = d'.openGroups
  restrictionCriteria : d.restrictionCriteria = d'.restrictionCriteria
  orderCriteria : d.orderCriteria = d'.orderCriteria

theorem sameUnfetched_of_eq {keepsJoins : Bool}
    (h : d.unfetched keepsJoins = d'.unfetched keepsJoins) : SameUnfetched d d' := by
  simp only [unfetched, mk.injEq] at h
  obtain ⟨hentity, halias, -, hrestrictions, horders, hparameters, -, hopen, hcriteria,
    horderCriteria, -⟩ := h
  exact ⟨hentity, halias, hrestrictions, hparameters, horders, hopen, hcriteria, horderCriteria⟩

theorem text_of_joins_eq_nil (h : d.joins = []) :
    d.text = "select " ++ d.rootAlias ++ " from " ++ d.entity ++ " " ++ d.rootAlias ++
      String.join (d.restrictions.map Fragment.text) ++ ordersText d.rootAlias d.orders := by
  have hdistinct : d.isDistinct = false := by rw [isDistinct, h]; rfl
  have hselect : "select " ++ (if d.isDistinct then "distinct " else "") = "select " := by
    rw [hdistinct]
    rfl
  have hjoins (s : String) : s ++ String.join (d.joins.map (JoinClause.text d.rootAlias)) = s := by
    rw [h]
    exact String.append_empty
  unfold text
  rw [hselect, hjoins]

/-- Drafts that are the same before anything is fetched have the same runs, but for joins and
hints. -/
theorem run_autoFetch (d : Draft) (schema : Schema) (root : Entity) (settings settings' : Settings)
    (keepsJoins : Bool) (hkeeps : keepsJoins = true → settings.strategy ≠ .joinFetch)
    (hkeeps' : keepsJoins = true → settings'.strategy ≠ .joinFetch) (calls : List Call) :
    outcomes perform (d.autoFetch schema root settings) calls =
        outcomes perform (d.autoFetch schema root settings') calls ∧
      ((d.autoFetch schema root settings).run calls).unfetched keepsJoins =
        ((d.autoFetch schema root settings').run calls).unfetched keepsJoins := by
  apply (suffices_unfetched keepsJoins).run
  rw [unfetched_autoFetch d schema root hkeeps, unfetched_autoFetch d schema root hkeeps']

/-- Whatever the settings of a query are, every call of a run has the same outcome, and the draft is
the same after it, but for joins and hints. Where no joins are used to fetch, the text is the same
too, without joins as long as no call has brought one. Hints stay as they were made. -/
theorem strategy_unseen {entity : String} {schema : Schema} {root : Entity}
    (hblank : Text.isBlank entity = false) (hentity : schema.entity? entity = some root)
    (settings settings' : Settings) :
    ∃ d d', create entity schema settings = .ok d ∧ create entity schema settings' = .ok d' ∧
      ∀ calls : List Call,
        outcomes perform d calls = outcomes perform d' calls ∧
        SameUnfetched (d.run calls) (d'.run calls) ∧
        (settings.strategy ≠ .joinFetch → settings'.strategy ≠ .joinFetch →
          (d.run calls).text = (d'.run calls).text ∧
            (d.run calls).isDistinct = (d'.run calls).isDistinct) ∧
        (settings.strategy ≠ .joinFetch → joinsTaken d calls = [] →
          (d.run calls).joins = [] ∧ (d.run calls).isDistinct = false ∧
            (d.run calls).text = "select " ++ d.rootAlias ++ " from " ++ d.entity ++ " " ++
              d.rootAlias ++ String.join ((d.run calls).restrictions.map Fragment.text) ++
              ordersText d.rootAlias (d.run calls).orders) ∧
        (d.run calls).hints = d.hints ∧
        (settings.strategy ≠ .fetchHints → d.hints = .empty) := by
  refine ⟨_, _, create_eq hblank hentity settings, create_eq hblank hentity settings', ?_⟩
  intro calls
  obtain ⟨hout, hsame⟩ := run_autoFetch (start root.simpleName root.aliasName) schema root
    settings settings' false nofun nofun calls
  refine ⟨hout, sameUnfetched_of_eq hsame, ?_, ?_, (fixed_run _ calls).2,
    hints_autoFetch _ schema root⟩
  · intro hjoin hjoin'
    obtain ⟨-, hsame⟩ := run_autoFetch (start root.simpleName root.aliasName) schema root
      settings settings' true (fun _ => hjoin) (fun _ => hjoin') calls
    have htext := congrArg text hsame
    have hdistinct := congrArg isDistinct hsame
    exact ⟨htext, hdistinct⟩
  · intro hjoin htaken
    have hjoins := (joins_run _ calls).2 ⟨joins_autoFetch _ schema root hjoin, htaken⟩
    refine ⟨hjoins, by simp [isDistinct, hjoins], ?_⟩
    rw [text_of_joins_eq_nil hjoins, rootAlias_run, (fixed_run _ calls).1]

/-- A join that is fetched already under one strategy is skipped, and goes in under another; a
restriction without a connective fails under both. -/
theorem strategy_unseen_join :
    let order : Entity := ⟨"Order", [⟨"lines", "Line", .many⟩]⟩
    let schema := Schema.ofList [order]
    let city := Criterion.comparing "city" .equal (.string "Mesa")
    let calls : List Call := [.add city, .addJoin (.joining "lines" .leftFetch), .add city]
    Text.isBlank "Order" = false ∧ schema.entity? "Order" = some order ∧
      ∃ d d', create "Order" schema ⟨.fetchHints, 3⟩ = .ok d ∧
        create "Order" schema ⟨.joinFetch, 3⟩ = .ok d' ∧
        (d.run (calls.take 1)).text = "select order from Order order where order.city = :param1" ∧
        (d.run calls).text = "select distinct order from Order order" ++
          " left join fetch order.lines where order.city = :param1" ∧
        d'.joins = [⟨.leftFetch, none, "lines", none⟩] ∧ (d'.run calls).joins = d'.joins ∧
        outcomes perform d calls = outcomes perform d' calls ∧
        SameUnfetched (d.run calls) (d'.run calls) ∧ (d.run calls).hints = d.hints := by
  intro order schema city calls
  have hblank : Text.isBlank "Order" = false := by decide
  have hentity : schema.entity? "Order" = some order := by decide
  obtain ⟨d, d', hcreate, hcreate', hruns⟩ :=
    strategy_unseen hblank hentity ⟨.fetchHints, 3⟩ ⟨.joinFetch, 3⟩
  obtain ⟨hout, hsame, -, -, hhints, -⟩ := hruns calls
  have hplan : fetchPlan schema order 3 = [⟨"lines", .many, 1⟩] := by
    rw [fetchPlan, FetchPlan.relations, FetchPlan.walk_eq_walkWithin 5 (by decide)]
    decide
  obtain rfl := Except.ok.inj ((create_eq hblank hentity _).symm.trans hcreate)
  obtain rfl := Except.ok.inj ((create_eq hblank hentity _).symm.trans hcreate')
  refine ⟨hblank, hentity, _, _, hcreate, hcreate', by decide, by decide, ?_, ?_, hout, hsame,
    hhints⟩
  · simp only [autoFetch, hplan]
    decide
  · simp only [autoFetch, hplan]
    decide

end Draft

end QueryCriteria.EntityQuery
