import QueryCriteria.Proofs.EntityQuery.Fetching
import QueryCriteria.Proofs.EntityQuery.Grammar
import QueryCriteria.Proofs.EntityQuery.Readability
import QueryCriteria.Proofs.EntityQuery.Spelling
/-!
# The unambiguity of queries

Two runs from one new draft that give the same text have written the same clauses, where the names
in the schema and the operands of the criteria keep to the alphabet (`text_run_inj`). Every such run
gives clauses that can be read (`legible_run`), and of these the text tells all (`text_inj`).
-/

namespace QueryCriteria

open EntityQuery

/-! ## Restrictions -/

/-- The predicate of a restriction is legible, whatever its number is. -/
theorem Restriction.legible_predicate {rootAlias : String} (hroot : AsciiName rootAlias)
    {r : Restriction} (hoperand : AsciiPath r.operand) (n : Nat) :
    (r.predicate rootAlias n).Legible := by
  have hpath := asciiPath_append hroot hoperand
  have hne : rootAlias ++ "." ++ r.operand ≠ "" := by simp
  rcases r.value_cases with ⟨hs, hv⟩ | ⟨hs | hs, value, hv⟩ <;> rw [Restriction.predicate, hv]
  · exact .tests hpath hne hs
  · exact .compares hpath hne hs (asciiName_parameterName n)
  · exact .contains hpath hs (asciiName_parameterName n)

variable {α : Type} (leaf : α → Predicate)

mutual
theorem Term.apart_fragments : ∀ t : Term α, Apart (t.fragments leaf)
  | .leaf _ => List.isChain_singleton _
  | .group e => (e.apart_fragments.cons_sign rfl).append_sign .nil rfl

theorem Expression.apart_fragments : ∀ e : Expression α, Apart (e.fragments leaf)
  | .single t => t.apart_fragments
  | .connected e c t =>
    e.apart_fragments.append_sign t.apart_fragments (by cases c <;> rfl)
end

/-- In the outline of an expression no two comparisons stand side by side. -/
theorem Outline.apart_fragments [Inhabited α] (o : Outline α) : Apart (o.fragments leaf) := by
  unfold Outline.fragments
  split
  · exact .nil
  · obtain ⟨e, rest, hrest⟩ := o.body_prefix leaf
    have hwhole : Apart (o.body leaf ++ rest) := hrest ▸ e.apart_fragments leaf
    exact Apart.cons_sign hwhole.left_of_append rfl

/-! ## Runs -/

/-- The operand of a criterion, if it has one, is a path. -/
def Criterion.AsciiOperand (c : Criterion) : Prop := ∀ operand ∈ c.operand, AsciiPath operand

instance (c : Criterion) : Decidable c.AsciiOperand :=
  inferInstanceAs (Decidable (∀ operand ∈ c.operand, AsciiPath operand))

theorem Criterion.AsciiOperand.of_requireOperand {c : Criterion} {purpose operand : String}
    (hc : c.AsciiOperand) (h : c.requireOperand purpose = .ok operand) : AsciiPath operand := by
  unfold Criterion.requireOperand at h
  split at h
  · next operand' hoperand =>
    split at h
    · cases h
    · cases h
      exact hc operand hoperand
  · cases h

namespace EntityQuery.Draft

variable {base d d' : Draft} {calls : List Call} {entity : String} {schema : Schema}
  {settings : Settings}

/-- Every predicate of a run is that of a restriction among the accepted criteria. -/
theorem exists_accepted_of_predicate (h : create entity schema settings = .ok d) {p : Predicate}
    (hp : .predicate p ∈ (d.run calls).restrictions) :
    ∃ (r : Restriction) (logical : Logical) (enclosure : Enclosure) (n : Nat),
      r.criterion logical enclosure ∈ accepted d calls ∧ p = r.predicate d.rootAlias n := by
  obtain ⟨hnone, hnew⟩ := follows_create h
  obtain ⟨ts, o, hspells, hfollows, -⟩ := hnew.run hnone calls
  rw [restrictionCriteria_run, hnone.eq_nil, List.nil_append] at hspells
  have hpredicate : p ∈ (d.run calls).restrictions.filterMap Fragment.predicate? :=
    List.mem_filterMap.2 ⟨_, hp, rfl⟩
  -- What is written are the restrictions that have been read, and accepted criteria spell these.
  rw [hfollows.predicates_eq] at hpredicate
  obtain ⟨⟨n, r⟩, hmem, rfl⟩ := List.mem_map.1 hpredicate
  have hr : r ∈ restrictionsOf ts := map_snd_numberFrom 1 (restrictionsOf ts) ▸
    List.mem_map_of_mem hmem
  obtain ⟨logical, enclosure, hc⟩ := hspells.exists_criterion hr
  exact ⟨r, logical, enclosure, n, hc, rfl⟩

/-- The where clause of a run is told fragment by fragment. -/
theorem separate_run (h : create entity schema settings = .ok d) (hroot : AsciiName d.rootAlias)
    (hcs : ∀ c ∈ accepted d calls, c.AsciiOperand) : Separate (d.run calls).restrictions := by
  refine ⟨?_, ?_⟩
  · rintro f hf p rfl
    obtain ⟨r, logical, enclosure, n, hc, rfl⟩ := exists_accepted_of_predicate h hf
    exact r.legible_predicate hroot (hcs _ hc r.operand rfl) n
  · -- What has been written is the outline of an expression, where a sign parts two comparisons.
    obtain ⟨⟨o, ho⟩, -⟩ := grammatical_run (grammatical_create h) calls
    rw [ho.restrictions]
    exact o.apart_fragments id

/-- A draft goes on from a new one with joins and orders that can be read. -/
structure Continues (base d : Draft) : Prop where
  entity : d.entity = base.entity
  rootAlias : d.rootAlias = base.rootAlias
  joins : ∃ added, d.joins = base.joins ++ added ∧ ∀ j ∈ added, j.Legible
  orders : ∀ o ∈ d.orders, o.Legible

theorem continues_create (h : create entity schema settings = .ok d) : Continues d d := by
  refine ⟨rfl, rfl, ⟨[], by simp, nofun⟩, ?_⟩
  obtain ⟨root, joins, joinCriteria, hints, -, rfl⟩ := create_eq_ok h
  exact nofun

variable {c : Criterion}

theorem Continues.add (hd : Continues base d) (h : d.add c = .ok d') : Continues base d' := by
  obtain ⟨_, _, _, -, rfl, -⟩ := add_cases h
  exact ⟨hd.entity, hd.rootAlias, hd.joins, hd.orders⟩

theorem Continues.addOrder (hd : Continues base d) (hc : c.AsciiOperand)
    (h : d.addOrder c = .ok d') : Continues base d' := by
  obtain ⟨operand, hrole, hoperand, rfl⟩ := addOrder_cases h
  have horder : OrderClause.Legible ⟨operand, c.order⟩ :=
    ⟨(Criterion.operators_of_role hrole).2.2.1, hc.of_requireOperand hoperand⟩
  exact ⟨hd.entity, hd.rootAlias, hd.joins,
    List.forall_mem_append.2 ⟨hd.orders, List.forall_mem_singleton.2 horder⟩⟩

theorem Continues.addJoin (hd : Continues base d) (hc : c.AsciiOperand)
    (h : d.addJoin c = .ok d') : Continues base d' := by
  obtain ⟨operand, hrole, hoperand, rfl⟩ := addJoin_cases h
  obtain ⟨added, heq, hadded⟩ := hd.joins
  have hjoin : JoinClause.Legible ⟨c.join, none, operand, none⟩ :=
    .mk (Criterion.operators_of_role hrole).2.1 (hc.of_requireOperand hoperand)
  unfold pushJoin
  split
  · exact hd
  · refine ⟨hd.entity, hd.rootAlias, ⟨added ++ [⟨c.join, none, operand, none⟩], ?_, ?_⟩, hd.orders⟩
    · rw [← List.append_assoc, ← heq]
    · exact List.forall_mem_append.2 ⟨hadded, List.forall_mem_singleton.2 hjoin⟩

theorem continues_run (h : create entity schema settings = .ok d)
    (hcs : ∀ c ∈ taken d calls, c.AsciiOperand) : Continues d (d.run calls) :=
  run_keeps_of_taken (Q := Criterion.AsciiOperand) (fun _ _ _ _ hd h => hd.add h)
    (fun _ _ _ hc hd h => hd.addOrder hc h) (fun _ _ _ hc hd h => hd.addJoin hc h) hcs
    (continues_create h)

/-- A draft goes on from another, and its where clause can be read too. -/
structure Readable (base d : Draft) : Prop extends Continues base d where
  begins : d.restrictions = [] ∨ ∃ fs, d.restrictions = .whereWord :: fs
  restrictions : Separate d.restrictions

theorem asciiName_create (hnames : ∀ e ∈ schema.toList, AsciiName e.name)
    (h : create entity schema settings = .ok d) : AsciiName d.rootAlias := by
  obtain ⟨root, joins, joinCriteria, hints, hroot, rfl⟩ := create_eq_ok h
  exact (hnames root (Schema.mem_toList_of_entity? hroot)).simpleName.lower

/-- Every run over paths gives clauses that can be read. -/
theorem legible_run (hnames : ∀ e ∈ schema.toList, AsciiName e.name)
    (h : create entity schema settings = .ok d) (hcs : ∀ c ∈ taken d calls, c.AsciiOperand) :
    Readable d (d.run calls) := by
  refine ⟨continues_run h hcs, ?_, ?_⟩
  · obtain ⟨⟨o, ho⟩, -⟩ := grammatical_run (grammatical_create h) calls
    rw [ho.restrictions]
    exact (beginsSentence_fragments o).imp_right fun ⟨fs, hfs, _⟩ => ⟨fs, hfs⟩
  · exact separate_run h (asciiName_create hnames h) fun c hc =>
      hcs c (accepted_subset_taken d calls hc)

/-! ## Texts -/

theorem toList_text (d : Draft) : d.text.toList = "select ".toList ++
    ((if d.isDistinct then "distinct ".toList else []) ++ (d.rootAlias.toList ++ (" from ".toList ++
      (d.entity.toList ++ (' ' :: d.rootAlias.toList ++ (joinChars d.rootAlias d.joins ++
        (clauseChars d.restrictions ++ (ordersText d.rootAlias d.orders).toList))))))) := by
  unfold text
  split <;> simp [joinChars, clauseChars, String.toList_join, List.flatMap_map]

/-- The name of the root is told from the word "distinct" by what follows. -/
theorem distinct_ne {rootAlias : String} (h : AsciiName rootAlias) (r r' : List Char) :
    "distinct ".toList ++ (rootAlias.toList ++ r) ≠ rootAlias.toList ++ (" from ".toList ++ r') := by
  have hsplit : "distinct ".toList ++ (rootAlias.toList ++ r) =
      "distinct".toList ++ ' ' :: (rootAlias.toList ++ r) := rfl
  have hdistinct : AsciiName "distinct" := by decide
  rw [hsplit]
  intro heq
  obtain ⟨rfl, hrest⟩ :=
    name_append_inj hdistinct h (stops_cons.2 (by decide)) (stops_cons.2 (by decide)) heq
  cases hrest

theorem distinct_append_inj {rootAlias : String} (h : AsciiName rootAlias) {w w' : Bool}
    {r r' : List Char}
    (heq : (if w then "distinct ".toList else []) ++ (rootAlias.toList ++ (" from ".toList ++ r)) =
      (if w' then "distinct ".toList else []) ++ (rootAlias.toList ++ (" from ".toList ++ r'))) :
    r = r' := by
  cases w <;> cases w'
  · exact List.append_cancel_left (List.append_cancel_left heq)
  · exact absurd heq.symm (distinct_ne h _ _)
  · exact absurd heq (distinct_ne h _ _)
  · exact List.append_cancel_left (List.append_cancel_left (List.append_cancel_left heq))

theorem Readable.endsJoins (h : Readable base d) :
    EndsJoins (clauseChars d.restrictions ++ (ordersText d.rootAlias d.orders).toList) := by
  rcases h.begins with hnone | ⟨fs, hfs⟩
  · rw [hnone]
    rcases endsClause_ordersText d.rootAlias d.orders with horders | ⟨rest, horders⟩
    · rw [horders]
      exact nofun
    · rw [horders]
      simp [EndsJoins, clauseChars]
  · rw [hfs]
    simp [EndsJoins, clauseChars, Fragment.text]

/-- Of readable clauses the text tells all. -/
theorem Readable.text_inj (hroot : AsciiName base.rootAlias) (h : Readable base d)
    (h' : Readable base d') (htext : d.text = d'.text) :
    d.restrictions = d'.restrictions ∧ d.joins = d'.joins ∧ d.orders = d'.orders := by
  obtain ⟨added, hjoins, hadded⟩ := h.joins
  obtain ⟨added', hjoins', hadded'⟩ := h'.joins
  have hends := h.endsJoins
  have hends' := h'.endsJoins
  have hchars := congrArg String.toList htext
  rw [toList_text, toList_text, h.rootAlias, h'.rootAlias, h.entity, h'.entity] at hchars
  rw [h.rootAlias] at hends
  rw [h'.rootAlias] at hends'
  -- Past the word "distinct" the texts agree as far as the joins that were there before; then joins,
  -- where clause and orders are told one after the other.
  have hclauses := List.append_cancel_left <| List.append_cancel_left <|
    distinct_append_inj hroot (List.append_cancel_left hchars)
  rw [hjoins, hjoins', joinChars, joinChars, List.flatMap_append, List.flatMap_append,
    List.append_assoc, List.append_assoc] at hclauses
  obtain ⟨rfl, hwhere⟩ := joinChars_append_inj hroot hadded hadded' hends hends'
    (List.append_cancel_left hclauses)
  obtain ⟨hrestrictions, horders⟩ := clauseChars_append_inj h.restrictions h'.restrictions
    (endsClause_ordersText _ _) (endsClause_ordersText _ _) hwhere
  exact ⟨hrestrictions, hjoins.trans hjoins'.symm, ordersText_inj h.orders h'.orders horders⟩

/-- Two runs from one new draft that give the same text have written the same clauses, where the
names of entities, and the operands of all criteria that either run takes, are of ASCII letters,
digits and underscores, the operands with dots between. Joins over the relations of the schema are
there before either run, so relations may have any names. -/
theorem text_run_inj (hnames : ∀ e ∈ schema.toList, AsciiName e.name)
    (h : create entity schema settings = .ok d) {calls calls' : List Call}
    (hcs : ∀ c ∈ taken d calls, c.AsciiOperand) (hcs' : ∀ c ∈ taken d calls', c.AsciiOperand)
    (htext : (d.run calls).text = (d.run calls').text) :
    (d.run calls).restrictions = (d.run calls').restrictions ∧
      (d.run calls).joins = (d.run calls').joins ∧
      (d.run calls).orders = (d.run calls').orders :=
  (legible_run hnames h hcs).text_inj (asciiName_create hnames h) (legible_run hnames h hcs') htext

/-- Two runs with different calls and values over a planned join: in one a batch is refused, in the
other a join is made twice. -/
theorem text_run_inj_planned :
    let person : Entity := ⟨"Person", [⟨"home", "Address", .one⟩]⟩
    let schema := Schema.ofList [person, ⟨"Address", []⟩]
    let named (value : String) := Criterion.comparing "name" .like (.string value)
    let tagged := (Criterion.comparing "tags" .notMemberOf (.boolean true)).withLogical .and
    let friends := Criterion.joining "friends" .left
    let byName := Criterion.ordering "name.last" .descending
    let calls : List Call := [.add (named "A%"), .addJoin friends, .addAll [tagged, named "B%"],
      .add tagged, .addOrder byName]
    let calls' : List Call := [.addOrder byName,
      .apply ⟨[named "C%", tagged], [friends, friends], []⟩]
    ∃ d, create "Person" schema ⟨.joinFetch, 3⟩ = .ok d ∧
      (d.run calls).text = "select distinct person from Person person" ++
        " left join fetch person.home left join person.friends" ++
        " where person.name like :param1 and :param2 not member of person.tags" ++
        " order by person.name.last desc" ∧
      (d.run calls).restrictions = (d.run calls').restrictions ∧
      (d.run calls).joins = (d.run calls').joins ∧
      (d.run calls).orders = (d.run calls').orders := by
  intro person schema named tagged friends byName calls calls'
  have hplan : fetchPlan schema person 3 = [⟨"home", .one, 1⟩] := by
    rw [fetchPlan, FetchPlan.relations, FetchPlan.walk_eq_walkWithin 5 (by decide)]
    decide
  have hentity : schema.entity? "Person" = some person := by decide
  have h := create_eq (by decide) hentity ⟨.joinFetch, 3⟩
  simp only [autoFetch, hplan] at h
  refine ⟨_, h, by decide +kernel, ?_⟩
  exact text_run_inj (by decide) h (by decide) (by decide) (by decide +kernel)

end EntityQuery.Draft

end QueryCriteria
