import QueryCriteria.Proofs.EntityQuery.Continuation
import QueryCriteria.Proofs.RangeTest
/-!
# Tests against a range in entity queries

A draft writes the two comparisons of a test against a range without brackets. Whatever comes
behind, two comparisons with "and" between them act as a single one, and two with "or" do exactly
when the where clause has no "and" directly in front of them or behind
(`RangeTest.connects_whole_iff`).
-/

open QueryCriteria.DirectorySearch (Connective)
open QueryCriteria.EntityQuery (Fragment Predicate whereValue)

namespace QueryCriteria

/-! ## The next fragment -/

section
variable {α : Type} (leaf : α → Predicate) {o o' : Outline α}

/-- A term that goes to its place is written behind "and" exactly when it goes on with a run. -/
theorem Outline.fragments_slot? {l : Logical} {s : Slot α} (h : o.slot? l = some s)
    {f : Fragment} (hf : f ≠ .andWord) (rest : List Fragment) :
    ∃ g more, .whereWord :: (groupFragments leaf o.outer ++ s.fragments leaf ++ f :: rest) =
      o.fragments leaf ++ g :: more ∧
      (g = .andWord ↔ o.current.isSome = true ∧ (l == .and) = true) := by
  obtain ⟨outer, current⟩ := o
  cases current with
  | some e =>
    refine ⟨(if l = .and then .andWord else .orWord), f :: rest, ?_⟩
    cases l with
    | undefined => cases h
    | and =>
      cases h
      simp [fragments, body, Slot.fragments, Connective.fragment]
    | or =>
      cases h
      simp [fragments, body, Slot.fragments, Connective.fragment]
  | none =>
    obtain rfl : s = .first := by
      cases l <;> simp [slot?] at h <;> simp [h]
    cases outer with
    | nil => exact ⟨.whereWord, f :: rest, by simp [fragments, groupFragments, Slot.fragments]⟩
    | cons s outer =>
      refine ⟨f, rest, ?_⟩
      simp [fragments, body, Slot.fragments, hf]

/-- The next fragment is "and" exactly when the next token goes on with a run. -/
theorem Outline.fragments_next? {t : Token α} (h : o.next? t = some o') :
    ∃ f more, o'.fragments leaf = o.fragments leaf ++ f :: more ∧
      (f = .andWord ↔ o.current.isSome = true ∧ t.joins = true) := by
  cases t with
  | opening l =>
    obtain ⟨s, hs, rfl⟩ := Option.map_eq_some_iff.1 h
    rw [fragments_opened]
    exact fragments_slot? leaf hs (by simp) []
  | comparison l a =>
    obtain ⟨s, hs, rfl⟩ := Option.map_eq_some_iff.1 h
    rw [fragments_put]
    exact fragments_slot? leaf hs (by simp) []
  | closing =>
    obtain ⟨outer, current⟩ := o
    match outer, current with
    | s :: outer, some e =>
      cases h
      exact ⟨.closing, [], fragments_closed leaf s outer e, by simp [Token.joins]⟩
    | [], _ | _ :: _, none => simp [next?] at h

theorem Outline.fragments_read? {ts : List (Token α)} (h : o.read? ts = some o') :
    ∃ more, o'.fragments leaf = o.fragments leaf ++ more ∧
      (more.head? = some .andWord ↔ o.current.isSome = true ∧ ∃ t ∈ ts.head?, t.joins = true) := by
  induction ts generalizing o with
  | nil =>
    cases h
    exact ⟨[], by simp⟩
  | cons t ts ih =>
    obtain ⟨o₁, h₁, h⟩ := Option.bind_eq_some_iff.1 h
    obtain ⟨f, more, hmore, hf⟩ := fragments_next? leaf h₁
    obtain ⟨more', hmore', -⟩ := ih h
    exact ⟨f :: more ++ more', by rw [hmore', hmore, List.append_assoc], by simpa using hf⟩

end

theorem joins_number (n : Nat) (ts : List (Token Restriction)) :
    (∃ t ∈ (number n ts).head?, t.joins = true) ↔ ∃ t ∈ ts.head?, t.joins = true := by
  cases ts with
  | nil => simp [number]
  | cons t ts => cases t <;> simp [number, Token.joins]

/-! ## Two comparisons -/

/-- A comparison with a value says that of a restriction. -/
theorem Says.of_comparing {operand : String} {comparison : Comparison} {value : Value}
    {l : Logical} {us : List (Token Restriction)}
    (hcomparison : Operator.isDefined comparison = true)
    (h : Says ((Criterion.comparing operand comparison value).withLogical l) us) :
    ∃ r : Restriction, r.bare = Criterion.comparing operand comparison value ∧
      us = [.comparison l r] := by
  rcases h.cases with ⟨hr, -⟩ | ⟨r, heq, rfl⟩
  · cases (Criterion.isDefined_of_enclosure hr).1.symm.trans hcomparison
  · exact ⟨r, (congrArg Criterion.bare heq).symm, rfl⟩

namespace RangeTest

variable {test : RangeTest} {operand : String} {logical : Logical} {low high : Value}
  {us : List (Token Restriction)}

/-- The two comparisons, without what connects them. -/
def comparisons (test : RangeTest) (operand : String) (low high : Value) : List Criterion :=
  [.comparing operand test.lower low, .comparing operand test.upper high]

/-- The criteria for the test spell two restrictions. -/
theorem exists_tokens {cs : List Criterion}
    (hcs : test.connected logical operand low high = .ok cs) (h : Spells cs us) :
    ∃ r r' : Restriction, us = test.tokens logical r r' ∧
      [r, r'].map Restriction.bare = test.comparisons operand low high := by
  rw [connected_eq] at hcs
  cases hcs
  cases h with
  | cons hlow h =>
    cases h with
    | cons hhigh h =>
      cases h
      obtain ⟨r, hr, rfl⟩ := hlow.of_comparing (by cases test <;> rfl)
      obtain ⟨r', hr', rfl⟩ := hhigh.of_comparing (by cases test <;> rfl)
      exact ⟨r, r', rfl, congrArg₂ (fun c c' => [c, c']) hr hr'⟩

/-- The two comparisons are read into one place. -/
theorem exists_read? {α : Type} {o o' : Outline α} {a a' : α}
    (h : o.read? (test.tokens logical a a') = some o') :
    ∃ s e, o.slot? logical = some s ∧ o' = ⟨o.outer, some e⟩ := by
  rw [tokens, Outline.read?_comparison] at h
  obtain ⟨s, hs, h⟩ := Option.bind_eq_some_iff.1 h
  rw [Outline.put, Outline.read?_comparison, Outline.slot?_connected] at h
  cases h
  exact ⟨s, _, hs, rfl⟩

end RangeTest

namespace EntityQuery.Draft

variable {rootAlias : String} {ts us : List (Token Restriction)}
  {o o₁ o' : Outline (Nat × Restriction)} {d d₁ d' : Draft} {test : RangeTest} {operand : String}
  {l : Logical} {low high : Value} {r r' : Restriction}

/-! ## Taking two comparisons -/

/-- The draft has taken the two comparisons of a test, in order. -/
structure TakesRange (test : RangeTest) (operand : String) (low high : Value) (d d' : Draft) :
    Prop where
  predicates : d'.predicates = d.predicates ++ (test.comparisons operand low high).mapIdx fun i =>
    Criterion.predicateAt d.rootAlias (d.parameters.toList.length + i)
  parameters : d'.parameters.toList = d.parameters.toList ++ [low, high].mapIdx fun i value =>
    (parameterName (d.parameters.toList.length + i + 1), value)
  openGroups : d'.openGroups = d.openGroups

/-- What is read behind other tokens goes on with their outline. -/
theorem Follows.read_behind (h : Follows rootAlias ts o d)
    (h' : Follows rootAlias (ts ++ us) o' d') : o.read? (number (nextNumber ts) us) = some o' := by
  have hread := h'.read
  rw [number_one_append, Outline.read?_append, h.read] at hread
  exact hread

theorem Follows.takesRange (h : Follows rootAlias ts o d)
    (h₁ : Follows rootAlias (ts ++ test.tokens l r r') o₁ d₁)
    (hbare : [r, r'].map Restriction.bare = test.comparisons operand low high) :
    TakesRange test operand low high d d₁ := by
  obtain ⟨s, e, -, rfl⟩ := RangeTest.exists_read? (h.read_behind h₁)
  have hvalues : valuesOf [r, r'] = [low, high] := by
    have hbound := congrArg (List.filterMap Criterion.value) hbare
    rwa [List.filterMap_map] at hbound
  refine ⟨h.predicates_append h₁ hbare.symm ?_, ?_, ?_⟩
  · simp [RangeTest.comparisons, Criterion.comparing, Criterion.restriction]
  · rw [← hvalues]
    exact h.parameters_append h₁
  · rw [h₁.writes.openGroups, h.writes.openGroups]
    rfl

/-! ## Next to "and" -/

/-- Where the where clause of a draft goes on in that of another, it goes on with "and". -/
def AndBehind (d d' : Draft) : Prop := d'.restrictions[d.restrictions.length]? = some .andWord

instance (d d' : Draft) : Decidable (AndBehind d d') :=
  inferInstanceAs (Decidable (d'.restrictions[d.restrictions.length]? = some .andWord))

theorem Follows.andBehind_iff (h : Follows rootAlias ts o d)
    (h' : Follows rootAlias (ts ++ us) o' d') :
    AndBehind d d' ↔ o.current.isSome = true ∧ ∃ t ∈ us.head?, t.joins = true := by
  obtain ⟨more, hmore, hand⟩ := Outline.fragments_read? (leafOf rootAlias) (h.read_behind h')
  rw [joins_number] at hand
  rw [AndBehind, h'.writes.restrictions, h.writes.restrictions, hmore,
    List.getElem?_append_right (Nat.le_refl _), Nat.sub_self, ← List.head?_eq_getElem?]
  exact hand

/-- What has been read, without the numbers. -/
theorem Follows.read_unnumbered (h : Follows rootAlias ts o d) :
    Outline.empty.read? ts = some (o.bind fun p => .leaf p.2) := by
  have hread := Outline.read?_map Prod.snd .empty (number 1 ts)
  rw [map_number, h.read] at hread
  exact hread

/-- The condition of a draft without open groups has the value of its tokens. -/
theorem Follows.whereValue_eq_read {e? : Option (Expression (Nat × Restriction))}
    (h : Follows rootAlias ts ⟨[], e?⟩ d) {values : List Bool}
    (hlength : values.length = (restrictionsOf ts).length) :
    whereValue values d.restrictions = (Levels.empty.read (Token.valued values ts)).value := by
  obtain ⟨b?, hread, hvalue⟩ := h.exists_whereValue hlength
  have hlevels : Outline.levels ⟨[], b?⟩ = Levels.empty.read (Token.valued values ts) :=
    Outline.levels_read? hread
  rw [hvalue, ← hlevels]
  cases b? <;> rfl

/-! ## Going on behind two comparisons -/

theorem length_range_iff {xs zs : List Bool} (hxs : xs.length = (restrictionsOf ts).length)
    (low high : Bool) :
    (xs ++ low :: high :: zs).length = (restrictionsOf (ts ++ test.tokens l r r' ++ us)).length ↔
      zs.length = (restrictionsOf us).length := by
  have htwo : (restrictionsOf (test.tokens l r r')).length = 2 := rfl
  simp only [restrictionsOf_append, List.length_append, List.length_cons, htwo, hxs]
  omega

theorem length_single {xs zs : List Bool} (hxs : xs.length = (restrictionsOf ts).length)
    (hzs : zs.length = (restrictionsOf us).length) (value : Bool) :
    (xs ++ value :: zs).length = (restrictionsOf (ts ++ .comparison l r :: us)).length := by
  have hone : (restrictionsOf (.comparison l r :: us)).length = (restrictionsOf us).length + 1 :=
    rfl
  rw [restrictionsOf_append, List.length_append, List.length_append, hone, hxs, List.length_cons,
    hzs]

/-- Where two drafts have read the comparisons of a test and a single restriction in their place,
the conditions have one value exactly when the connective of the test is "and", or the where clause
has no "and" next to the two. -/
theorem Follows.whereValue_range_iff {l : Logical} {r'' : Restriction} {d₂ : Draft}
    {e? e₂? : Option (Expression (Nat × Restriction))} (h : Follows rootAlias ts o d)
    (h₁ : Follows rootAlias (ts ++ test.tokens l r r') o₁ d₁)
    (h' : Follows rootAlias (ts ++ test.tokens l r r' ++ us) ⟨[], e?⟩ d')
    (h₂ : Follows rootAlias (ts ++ .comparison l r'' :: us) ⟨[], e₂?⟩ d₂) :
    (∀ (xs : List Bool) (low high : Bool) (zs : List Bool), xs.length = d.predicates.length →
      (xs ++ low :: high :: zs).length = d'.predicates.length →
      whereValue (xs ++ low :: high :: zs) d'.restrictions =
        whereValue (xs ++ test.holds low high :: zs) d₂.restrictions) ↔
    test = .between ∨ ¬ AndBehind d d₁ ∧ ¬ AndBehind d₁ d' := by
  obtain ⟨s, e, -, rfl⟩ := RangeTest.exists_read? (h.read_behind h₁)
  have hfront : AndBehind d d₁ ↔ o.current.isSome = true ∧ l = .and := by
    rw [h.andBehind_iff h₁]
    simp [RangeTest.tokens, Token.joins]
  have hbehind : ¬ AndBehind d₁ d' ↔ ∀ t ∈ us.head?, t.joins = false := by
    rw [h₁.andBehind_iff h']
    simp
  have hiff := RangeTest.actsAsOne_iff r'' h.read_unnumbered h'.read_unnumbered
  have hcurrent : (o.bind fun p => .leaf p.2).current.isSome = o.current.isSome := Option.isSome_map
  rw [hcurrent, ← hfront, ← hbehind] at hiff
  rw [← hiff, h.length_predicates, h'.length_predicates]
  constructor
  · intro hvalue xs low high zs hxs hzs
    have hlength : (xs ++ low :: high :: zs).length =
        (restrictionsOf (ts ++ test.tokens l r r' ++ us)).length :=
      (length_range_iff hxs low high).2 hzs
    rw [← h'.whereValue_eq_read hlength, ← h₂.whereValue_eq_read (length_single hxs hzs _)]
    exact hvalue xs low high zs hxs hlength
  · intro hvalue xs low high zs hxs hlength
    have hzs := (length_range_iff hxs low high).1 hlength
    rw [h'.whereValue_eq_read hlength, h₂.whereValue_eq_read (length_single hxs hzs _)]
    exact hvalue xs low high zs hxs hzs

/-- Behind the two comparisons of a test, which a first draft has taken, calls fare as they do
behind a single one, which a second draft has taken in their place. Both conditions have one value,
under all values of the comparisons before, of the two and of those behind, exactly when the
connective of the test is "and", or the where clause has no "and" next to the two. -/
structure GoesOnUnbracketed (test : RangeTest) (d d₁ d₂ : Draft) (calls : List Call) : Prop where
  runs : RunsAlike d₁ d₂ calls
  conditions : ∀ query, (d₁.run calls).compile = .ok query → query.text = (d₁.run calls).text ∧
    ((∀ (xs : List Bool) (low high : Bool) (zs : List Bool), xs.length = d.predicates.length →
        (xs ++ low :: high :: zs).length = (d₁.run calls).predicates.length →
        whereValue (xs ++ low :: high :: zs) (d₁.run calls).restrictions =
          whereValue (xs ++ test.holds low high :: zs) (d₂.run calls).restrictions) ↔
      test = .between ∨ ¬ AndBehind d d₁ ∧ ¬ AndBehind d₁ (d₁.run calls))

/-- Where two drafts have read the comparisons of a test and a single restriction in their place,
they go on alike. -/
theorem Follows.goesOnUnbracketed {r'' : Restriction} {o₂ : Outline (Nat × Restriction)}
    {d₂ : Draft} (h : Follows rootAlias ts o d)
    (h₁ : Follows rootAlias (ts ++ test.tokens l r r') o₁ d₁)
    (hts₁ : Spells d₁.restrictionCriteria (ts ++ test.tokens l r r'))
    (h₂ : Follows rootAlias (ts ++ [.comparison l r'']) o₂ d₂)
    (hts₂ : Spells d₂.restrictionCriteria (ts ++ [.comparison l r''])) (hplace : place d₁ = place d₂)
    (calls : List Call) : GoesOnUnbracketed test d d₁ d₂ calls := by
  obtain ⟨hruns, us, p, p', h₁', h₂'⟩ := h₁.runsAlike hts₁ h₂ hts₂ hplace calls
  refine ⟨hruns, fun query hquery => ?_⟩
  obtain ⟨htext, e?, e'?, rfl, rfl⟩ := hruns.of_compile h₁' h₂' hquery
  rw [List.append_assoc, List.singleton_append] at h₂'
  exact ⟨htext, h.whereValue_range_iff h₁ h₁' h₂'⟩

/-- A draft that takes the two comparisons takes any single one in their place, and both go on. -/
theorem goesOnUnbracketed_of_addAll {entity : String} {schema : Schema} {settings : Settings}
    {d₀ : Draft} (h : create entity schema settings = .ok d₀) (before : List Call)
    {cs : List Criterion} (hcs : test.connected l operand low high = .ok cs)
    (hall : (d₀.run before).addAll cs = .ok d₁) :
    TakesRange test operand low high (d₀.run before) d₁ ∧
      ∀ r : Restriction, ∃ d₂, (d₀.run before).add (r.criterion l .undefined) = .ok d₂ ∧
        ∀ calls, GoesOnUnbracketed test (d₀.run before) d₁ d₂ calls := by
  obtain ⟨hnone, hnew⟩ := follows_create h
  obtain ⟨ts, o, hts, hfollows, -⟩ := hnew.run hnone before
  rw [List.nil_append] at hts hfollows
  obtain ⟨us, hspells⟩ := spells_of_addAll hall
  obtain ⟨r, r', rfl, hbare⟩ := RangeTest.exists_tokens hcs hspells
  obtain ⟨o₁, -, h₁⟩ := (hall ▸ addAll_agrees hfollows hspells).of_ok
  obtain ⟨s, e, hs, rfl⟩ := RangeTest.exists_read? (hfollows.read_behind h₁)
  have hrecord₁ : d₁.restrictionCriteria = _ ++ _ :=
    foldlM_ok_record (fun _ _ _ h => (restrictions_add h).2) hall
  refine ⟨hfollows.takesRange h₁ hbare, fun r'' => ?_⟩
  have hsingle := (Says.restriction r'' l).spells
  obtain ⟨o₂, d₂, hadd, h₂, hplace₂⟩ := hfollows.of_single hs r''
  have hrecord₂ := (restrictions_add hadd).2
  have hplace : place d₁ = place d₂ := by
    rw [h₁.place_eq, hplace₂, hfollows.writes.openGroups]
    rfl
  exact ⟨d₂, hadd, hfollows.goesOnUnbracketed h₁ (hrecord₁ ▸ hts.append hspells) h₂
    (hrecord₂ ▸ hts.append hsingle) hplace⟩

end EntityQuery.Draft

namespace RangeTest

open EntityQuery.Draft

/-- With or without a connective, the criteria of a test that a draft takes bring two comparisons
and leave no more groups open. In each such state the draft takes any single comparison in their
place, with the same connective, and fares alike behind it. Whatever comes behind, the two have the
meaning of a single one that is true of what the test says of them, if the connective of the test is
"and"; and else exactly where no "and" stands next to them in the where clause, in front or
behind. -/
theorem connects_whole_iff (test : RangeTest) (logical : Logical) (operand : String)
    (low high : Value) : ∃ cs, test.connected logical operand low high = .ok cs ∧
      ∀ (entity : String) (schema : Schema) (settings : Settings) (d₀ : EntityQuery.Draft)
          (before : List EntityQuery.Call) (d₁ : EntityQuery.Draft),
        create entity schema settings = .ok d₀ → (d₀.run before).addAll cs = .ok d₁ →
        TakesRange test operand low high (d₀.run before) d₁ ∧
          ∀ r : Restriction, ∃ d₂, (d₀.run before).add (r.criterion logical .undefined) = .ok d₂ ∧
            ∀ calls, GoesOnUnbracketed test (d₀.run before) d₁ d₂ calls := by
  have hcs := test.connected_eq logical operand low high
  refine ⟨_, hcs, ?_⟩
  intro entity schema settings d₀ before d₁ h hall
  exact goesOnUnbracketed_of_addAll h before hcs hall

/-- In brackets of its own a test stands as a whole, although "and" is in front of the bracket. -/
theorem connects_whole_iff_bracketed : ∃ d,
    create "Employee" (Schema.ofList [⟨"Employee", []⟩]) ⟨.disabled, 3⟩ = .ok d ∧
    let active := Criterion.comparing "active" .equal (.boolean true)
    let before : List EntityQuery.Call :=
      [.add active, .add ((Criterion.marker .opening).withLogical .and)]
    let calls : List EntityQuery.Call := [.add (Criterion.marker .closing)]
    ∃ cs d₁ query, notBetween.connected .undefined "salary" (.integer 1000) (.integer 2000) =
        .ok cs ∧
      (d.run before).addAll cs = .ok d₁ ∧ (d₁.run calls).compile = .ok query ∧
      query.text = "select employee from Employee employee where employee.active = :param1" ++
        " and (employee.salary < :param2 or employee.salary > :param3)" ∧
      TakesRange notBetween "salary" (.integer 1000) (.integer 2000) (d.run before) d₁ ∧
      ∀ r : Restriction, ∃ d₂, (d.run before).add (r.criterion .undefined .undefined) = .ok d₂ ∧
        ∀ (xs : List Bool) (low high : Bool) (zs : List Bool), xs.length = 1 →
          (xs ++ low :: high :: zs).length = 3 →
          whereValue (xs ++ low :: high :: zs) (d₁.run calls).restrictions =
            whereValue (xs ++ (low || high) :: zs) (d₂.run calls).restrictions := by
  have h : create "Employee" (Schema.ofList [⟨"Employee", []⟩]) ⟨.disabled, 3⟩ =
      .ok (start "Employee" "employee") := rfl
  refine ⟨_, h, ?_⟩
  intro active before calls
  obtain ⟨cs, hcs, hconnects⟩ :=
    connects_whole_iff notBetween .undefined "salary" (.integer 1000) (.integer 2000)
  cases hcs
  have hall : ((start "Employee" "employee").run before).addAll
      (notBetween.criteria "salary" (.integer 1000) (.integer 2000)) = .ok _ := rfl
  refine ⟨_, _, _, rfl, hall, rfl, by decide, ?_⟩
  obtain ⟨htakes, hatom⟩ := hconnects _ _ _ _ before _ h hall
  refine ⟨htakes, fun r => ?_⟩
  obtain ⟨d₂, hd₂, hgoesOn⟩ := hatom r
  refine ⟨d₂, hd₂, fun xs low high zs hxs hlength => ?_⟩
  obtain ⟨-, hiff⟩ := (hgoesOn calls).conditions _ rfl
  have hwhole := hiff.2 (.inr (by decide))
  exact hwhole xs low high zs hxs hlength

/-- Behind "and" it does not: someone inactive with a salary above the range is found, although no
single comparison behind that "and" could bring this. -/
theorem not_connects_whole : ∃ d,
    create "Employee" (Schema.ofList [⟨"Employee", []⟩]) ⟨.disabled, 3⟩ = .ok d ∧
    let active := Criterion.comparing "active" .equal (.boolean true)
    let salary := (Criterion.comparing "salary" .equal (.integer 1000)).withLogical .and
    ∃ cs d₁ d₂ query, notBetween.connected .and "salary" (.integer 1000) (.integer 2000) =
        .ok cs ∧
      (d.run [.add active]).addAll cs = .ok d₁ ∧ (d.run [.add active]).add salary = .ok d₂ ∧
      d₁.compile = .ok query ∧
      query.text = "select employee from Employee employee where employee.active = :param1" ++
        " and employee.salary < :param2 or employee.salary > :param3" ∧
      whereValue [false, false, true] d₁.restrictions = true ∧
      whereValue [false, notBetween.holds false true] d₂.restrictions = false := by
  have h : create "Employee" (Schema.ofList [⟨"Employee", []⟩]) ⟨.disabled, 3⟩ = .ok _ := rfl
  exact ⟨_, h, _, _, _, _, rfl, rfl, rfl, rfl, by decide, by decide, by decide⟩

end RangeTest

end QueryCriteria
