import QueryCriteria.Criterion.Composite
import QueryCriteria.Proofs.EntityQuery.Spelling
import QueryCriteria.Proofs.Precedence
import QueryCriteria.Proofs.Valuation
/-!
# Tests against lists

The test whether an operand is in a list, or in none of its places, takes a comparison for each
value. Whatever it is connected by, its criteria spell one term (`ListTest.spells_listed`), which
holds when the comparisons say so together (`ListTest.holds_spread`).
-/

open QueryCriteria.DirectorySearch (Connective)

namespace QueryCriteria

variable {α β : Type}

/-! ## Spread terms -/

/-- An expression with more comparisons, each behind the same connective. -/
def Expression.extend (c : Connective) (e : Expression α) (as : List α) : Expression α :=
  as.foldl (fun e a => .connected e c (.leaf a)) e

/-- A comparison, alone or in brackets with more of them behind the same connective. -/
def Term.spread (c : Connective) (a : α) : List α → Term α
  | [] => .leaf a
  | b :: as => .group ((Expression.single (.leaf a)).extend c (b :: as))

section
variable (c : Connective)

theorem Expression.tokens_extend (e : Expression α) (as : List α) (l : Logical) :
    (e.extend c as).tokens l = e.tokens l ++ as.map (Token.comparison c.logical) := by
  induction as generalizing e with
  | nil => exact (List.append_nil _).symm
  | cons a as ih =>
    rw [extend, List.foldl_cons, ← extend, ih, Expression.tokens, List.append_assoc]
    rfl

theorem Term.tokens_spread (a : α) {as : List α} (h : as ≠ []) (l : Logical) :
    (spread c a as).tokens l = .opening l :: .comparison .undefined a ::
      (as.map (Token.comparison c.logical) ++ [.closing]) := by
  cases as with
  | nil => exact absurd rfl h
  | cons b as =>
    rw [spread, Term.tokens, Expression.tokens_extend]
    rfl

theorem Expression.leaves_extend (e : Expression α) (as : List α) :
    (e.extend c as).leaves = e.leaves ++ as := by
  induction as generalizing e with
  | nil => exact (List.append_nil _).symm
  | cons a as ih =>
    rw [extend, List.foldl_cons, ← extend, ih, Expression.leaves, List.append_assoc]
    rfl

theorem Expression.map_extend (f : α → β) (e : Expression α) (as : List α) :
    (e.extend c as).map f = (e.map f).extend c (as.map f) := by
  induction as generalizing e with
  | nil => rfl
  | cons a as ih => exact ih (.connected e c (.leaf a))

theorem Term.leaves_spread (a : α) (as : List α) : (spread c a as).leaves = a :: as := by
  cases as with
  | nil => rfl
  | cons b as => exact (Expression.single (.leaf a)).leaves_extend c (b :: as)

theorem Term.map_spread (f : α → β) (a : α) (as : List α) :
    (spread c a as).map f = spread c (f a) (as.map f) := by
  cases as with
  | nil => rfl
  | cons b as =>
    exact congrArg Term.group ((Expression.single (.leaf a)).map_extend c f (b :: as))

/-- Truth values in place of the comparisons are spread alike. -/
theorem Token.valued_spread (a : α) (value : Bool) {as : List α} {values : List Bool}
    (h : values.length = as.length) (l : Logical) :
    valued (value :: values) ((Term.spread c a as).tokens l) =
      (Term.spread c value values).tokens l := by
  obtain ⟨ps, rfl, rfl⟩ : ∃ ps : List (Bool × α), ps.map Prod.fst = values ∧ ps.map Prod.snd = as :=
    ⟨values.zip as, List.map_fst_zip (Nat.le_of_eq h), List.map_snd_zip (Nat.le_of_eq h.symm)⟩
  have hsnd := Term.map_spread c Prod.snd (value, a) ps
  have hfst := Term.map_spread c Prod.fst (value, a) ps
  rw [← hsnd, Term.tokens_map, valued_map, ← valued_map Prod.fst, ← Term.tokens_map, hfst]
  have hleaves := (Term.spread c value (ps.map Prod.fst)).leaves_tokens l
  rw [Term.leaves_spread] at hleaves
  rw [← hleaves, valued_leaves]

section
variable {truth : α → Bool}

theorem Expression.folds_extend (e : Expression α) (as : List α) :
    (e.extend c as).folds truth = (as.map truth).foldl c.join (e.folds truth) := by
  induction as generalizing e with
  | nil => rfl
  | cons a as ih => exact ih (.connected e c (.leaf a))

theorem Expression.uses_extend {e : Expression α} (h : e.Uses c) (as : List α) :
    (e.extend c as).Uses c := by
  induction as generalizing e with
  | nil => exact h
  | cons a as ih => exact ih (e := .connected e c (.leaf a)) ⟨rfl, h, trivial⟩

theorem Term.folds_spread (a : α) (as : List α) :
    (spread c a as).folds truth = (as.map truth).foldl c.join (truth a) := by
  cases as with
  | nil => rfl
  | cons b as => exact (Expression.single (.leaf a)).folds_extend c (b :: as)

/-- A spread term has one connective only, so that precedence makes no difference. -/
theorem Term.unmixed_spread (a : α) (as : List α) : (spread c a as).Unmixed := by
  cases as with
  | nil => trivial
  | cons b as => exact ⟨c, Expression.uses_extend (e := .single (.leaf a)) c trivial (b :: as)⟩

theorem Term.holds_spread (a : α) (as : List α) :
    (spread c a as).holds truth = (as.map truth).foldl c.join (truth a) := by
  rw [← (spread c a as).folds_eq_holds (unmixed_spread c a as), folds_spread]

end

/-- Where truth values are read with one comparison, they are read with more in place of it. Both
come from one expression with a hole. -/
theorem Outline.exists_spread {ts us : List (Token α)} {l : Logical} {a b : α} {as : List α}
    {value v : Bool} {before values behind : List Bool} {b? : Option (Expression Bool)}
    (hbefore : before.length = (ts.filterMap Token.leaf?).length)
    (hvalues : values.length = as.length)
    (h : empty.read? (Token.valued (before ++ value :: behind) (ts ++ .comparison l b :: us)) =
      some ⟨[], b?⟩) :
    ∃ x? : Option (Expression (Option Bool)), b? = x?.map (·.bind (Term.leaf value).inHole) ∧
      empty.read? (Token.valued (before ++ v :: values ++ behind)
          (ts ++ (Term.spread c a as).tokens l ++ us)) =
        some ⟨[], x?.map (·.bind (Term.spread c v values).inHole)⟩ := by
  rw [Token.valued_append hbefore] at h
  obtain ⟨x?, hx⟩ := exists_inHole h
  refine ⟨x?, ?_, ?_⟩
  · have hleaf := hx (.leaf value)
    rw [Term.tokens, List.append_assoc, List.singleton_append] at hleaf
    exact (Outline.mk.inj (Option.some.inj (h.symm.trans hleaf))).2
  · have hlength : (v :: values).length =
        (((Term.spread c a as).tokens l).filterMap Token.leaf?).length := by
      rw [Term.leaves_tokens, Term.leaves_spread, List.length_cons, List.length_cons, hvalues]
    have hinner := Token.valued_append hlength behind us
    rw [List.append_assoc, List.append_assoc, Token.valued_append hbefore, hinner,
      Token.valued_spread c a v hvalues, ← List.append_assoc]
    exact hx _

end

/-! ## Tests -/

/-- Whether an operand equals some value of a list, or differs from every one. -/
inductive ListTest where
  | isIn
  | isNotIn
deriving Repr, DecidableEq

namespace ListTest

/-- The comparison with each value. -/
def comparison : ListTest → Comparison
  | isIn => .equal
  | isNotIn => .notEqual

/-- The connective between the comparisons. -/
def connective : ListTest → Connective
  | isIn => .or
  | isNotIn => .and

/-- What an empty list is missed for. -/
def purpose : ListTest → String
  | isIn => "is_in"
  | isNotIn => "is_not_in"

/-- What the test says of the truth values of its comparisons. -/
def holds : ListTest → List Bool → Bool
  | isIn, values => values.any id
  | isNotIn, values => values.all id

/-- The comparison with one value. -/
def criterion (test : ListTest) (operand : String) (value : Value) : Criterion :=
  .comparing operand test.comparison value

/-- The criteria for the test. -/
def criteria : ListTest → String → List Value → Except Fault (List Criterion)
  | isIn => Criterion.isIn
  | isNotIn => Criterion.isNotIn

/-- The criteria for the test, with a connective in front if there is one. -/
def connected (test : ListTest) (logical : Logical) (operand : String) (values : List Value) :
    Except Fault (List Criterion) :=
  match logical with
  | .undefined => test.criteria operand values
  | logical => do Criterion.connect logical (← test.criteria operand values)

/-- What these criteria are. -/
def listed (test : ListTest) (logical : Logical) (operand : String) (value : Value) :
    List Value → List Criterion
  | [] => [(test.criterion operand value).withLogical logical]
  | v :: values => (Criterion.marker .opening).withLogical logical ::
      test.criterion operand value ::
      (v :: values).map (fun v =>
        (test.criterion operand v).withLogical test.connective.logical) ++
      [.marker .closing]

variable (test : ListTest) (logical : Logical) (operand : String)

/-- An empty list is rejected, whatever connective it gets. -/
theorem connected_nil :
    test.connected logical operand [] = .error (.missingValues test.purpose operand) := by
  cases test <;> cases logical <;> rfl

theorem connected_cons (value : Value) (values : List Value) :
    test.connected logical operand (value :: values) =
      .ok (test.listed logical operand value values) := by
  cases test <;> cases logical <;> cases values <;> rfl

/-- A criterion for the test is a bracket or a comparison with one of the values. -/
theorem listed_cases {value : Value} {values : List Value} {c : Criterion}
    (h : c ∈ test.listed logical operand value values) :
    (∃ enclosure l, Operator.isDefined enclosure = true ∧
      c = (Criterion.marker enclosure).withLogical l) ∨
      ∃ v ∈ value :: values, ∃ l, c = (test.criterion operand v).withLogical l := by
  cases values with
  | nil =>
    obtain rfl := List.mem_singleton.1 h
    exact .inr ⟨value, .head _, logical, rfl⟩
  | cons v values =>
    rcases List.mem_cons.1 h with rfl | h
    · exact .inl ⟨.opening, logical, rfl, rfl⟩
    · rcases List.mem_cons.1 h with rfl | h
      · exact .inr ⟨value, .head _, .undefined, rfl⟩
      · rcases List.mem_append.1 h with h | h
        · obtain ⟨v', hv', rfl⟩ := List.mem_map.1 h
          exact .inr ⟨v', .tail _ hv', _, rfl⟩
        · obtain rfl := List.mem_singleton.1 h
          exact .inl ⟨.closing, .undefined, rfl, rfl⟩

theorem foldl_join (value : Bool) (values : List Bool) :
    values.foldl test.connective.join value = test.holds (value :: values) := by
  induction values generalizing value with
  | nil => cases test <;> simp [holds]
  | cons v values ih =>
    rw [List.foldl_cons, ih]
    cases test <;> simp [holds, connective, Connective.join, Bool.or_assoc, Bool.and_assoc]

theorem role_criterion (l : Logical) (value : Value) :
    ((test.criterion operand value).withLogical l).role = .ok .restriction := by
  cases test <;> rfl

theorem compared?_criterion (l : Logical) (value : Value) :
    ((test.criterion operand value).withLogical l).compared? =
      some ((test.criterion operand value).withLogical l) := by
  cases test <;> rfl

theorem tokens_criterion (l : Logical) (value : Value) :
    ((test.criterion operand value).withLogical l).tokens
        ((test.criterion operand value).withLogical l).compared? =
      [.comparison l ((test.criterion operand value).withLogical l)] := by
  rw [compared?_criterion]
  rfl

theorem readingOf_map_criterion (l : Logical) (values : List Value) :
    readingOf (values.map fun v => (test.criterion operand v).withLogical l) =
      (values.map fun v => (test.criterion operand v).withLogical l).map (.comparison l) := by
  induction values with
  | nil => rfl
  | cons v values ih =>
    rw [List.map_cons, readingOf_cons, ih, tokens_criterion]
    rfl

/-- The criteria for the test read as one term. -/
theorem readingOf_listed (value : Value) (values : List Value) : ∃ a as,
    readingOf (test.listed logical operand value values) =
        (Term.spread test.connective a as).tokens logical ∧
      (a :: as).map Criterion.bare = (value :: values).map (test.criterion operand) := by
  cases values with
  | nil =>
    refine ⟨(test.criterion operand value).withLogical logical, [], ?_, rfl⟩
    rw [listed, readingOf_cons, tokens_criterion]
    rfl
  | cons v values =>
    refine ⟨test.criterion operand value, (v :: values).map fun v =>
      (test.criterion operand v).withLogical test.connective.logical, ?_, ?_⟩
    · have hfirst := test.tokens_criterion operand .undefined value
      have hrest := test.readingOf_map_criterion operand test.connective.logical (v :: values)
      rw [Term.tokens_spread _ _ (by simp), ← hrest, listed, List.cons_append, List.cons_append,
        readingOf_cons, readingOf_cons, readingOf_append]
      exact congrArg (fun ts => Token.opening logical :: (ts ++ _)) hfirst
    · rw [List.map_cons, List.map_map]
      rfl

/-! ## In place of one comparison -/

section
variable {test}

/-- With the values of its comparisons, the term for the test holds when the test says so. -/
theorem holds_inHole (value : Bool) (values : List Bool) (x : Expression (Option Bool)) :
    (x.bind (Term.spread test.connective value values).inHole).holds id =
      (x.bind (Term.leaf (test.holds (value :: values))).inHole).holds id := by
  have hspread : (Term.spread test.connective value values).holds id =
      test.holds (value :: values) := by
    rw [Term.holds_spread, List.map_id, id, foldl_join]
  rw [Expression.holds_bind, Expression.holds_bind]
  congr 1
  funext a?
  cases a? with
  | none => exact hspread
  | some a => rfl

variable {ts us : List (Token α)} {l : Logical} {a b : α} {as : List α}
  {before values behind : List Bool}

/-- One comparison in place of the list takes one value. -/
theorem length_single (hvalues : values.length = as.length + 1)
    (hlength : (before ++ values ++ behind).length =
      ((ts ++ (Term.spread test.connective a as).tokens l ++ us).filterMap Token.leaf?).length)
    (value : Bool) : (before ++ value :: behind).length =
      ((ts ++ .comparison l b :: us).filterMap Token.leaf?).length := by
  rw [List.filterMap_append, List.filterMap_append, Term.leaves_tokens, Term.leaves_spread]
    at hlength
  have hsingle : ((Token.comparison l b :: us).filterMap Token.leaf?).length =
      (us.filterMap Token.leaf?).length + 1 := rfl
  rw [List.filterMap_append, List.length_append, List.length_append, hsingle]
  simp only [List.length_append, List.length_cons] at hlength ⊢
  omega

/-- Where truth values are read with the list, and with one comparison in its place that has the
value that the test tells, what is read has the same value. -/
theorem elim_eq {m : Expression Bool → Bool} (hm : ∀ value values (x : Expression (Option Bool)),
      m (x.bind (Term.spread test.connective value values).inHole) =
        m (x.bind (Term.leaf (test.holds (value :: values))).inHole))
    (hbefore : before.length = (ts.filterMap Token.leaf?).length)
    (hvalues : values.length = as.length + 1) {b? b'? : Option (Expression Bool)}
    (h : Outline.empty.read? (Token.valued (before ++ values ++ behind)
      (ts ++ (Term.spread test.connective a as).tokens l ++ us)) = some ⟨[], b?⟩)
    (h' : Outline.empty.read? (Token.valued (before ++ test.holds values :: behind)
      (ts ++ .comparison l b :: us)) = some ⟨[], b'?⟩) (none : Bool) :
    b?.elim none m = b'?.elim none m := by
  obtain ⟨value, values, rfl⟩ := List.exists_cons_of_length_eq_add_one hvalues
  obtain ⟨x?, rfl, hread⟩ := Outline.exists_spread test.connective (a := a) (v := value) hbefore
    (Nat.succ.inj hvalues) h'
  obtain rfl := (Outline.mk.inj (Option.some.inj (h.symm.trans hread))).2
  cases x? with
  | none => rfl
  | some x => exact hm value values x

end

section
variable {operand} (hoperand : Text.isBlank operand = false)

/-- The restriction by one value. -/
def restriction (value : Value) : Restriction where
  operand := operand
  comparison := test.comparison
  value := some value
  operand_not_blank := hoperand
  comparison_defined := by cases test <;> rfl
  value_isSome := by cases test <;> rfl

/-- The criteria for the test spell one term. -/
theorem spells_listed (value : Value) (values : List Value) :
    Spells (test.listed logical operand value values)
      ((Term.spread test.connective (test.restriction hoperand value)
        (values.map (test.restriction hoperand))).tokens logical) := by
  cases values with
  | nil => exact (Says.restriction (test.restriction hoperand value) logical).spells
  | cons v values =>
    have hrest (values : List Value) :
        Spells (values.map fun v => (test.criterion operand v).withLogical test.connective.logical)
          ((values.map (test.restriction hoperand)).map (.comparison test.connective.logical)) := by
      induction values with
      | nil => exact .nil
      | cons v values ih =>
        have hsays := Says.restriction (test.restriction hoperand v) test.connective.logical
        exact .cons hsays ih
    have hfirst := Says.restriction (test.restriction hoperand value) .undefined
    rw [Term.tokens_spread _ _ (by simp)]
    exact (Says.opening none none logical).spells.append
      (hfirst.spells.append ((hrest (v :: values)).append
        (Says.closing none none .undefined).spells))

end

end ListTest

end QueryCriteria
