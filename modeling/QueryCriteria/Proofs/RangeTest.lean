import QueryCriteria.Criterion.Composite
import QueryCriteria.Proofs.Levels
/-!
# Tests against a range

Whether an operand lies in a range or outside of it, as two comparisons with a connective between
them and no brackets around them. Two comparisons with "and" always act as a single one that is true
when both are; with "or" they do unless an "and" stands next to them, in front or behind
(`RangeTest.actsAsOne_iff`).
-/

open QueryCriteria.DirectorySearch (Connective)

namespace QueryCriteria

/-- Whether an operand lies between two values, or does not. -/
inductive RangeTest where
  | between
  | notBetween
deriving Repr, DecidableEq

namespace RangeTest

/-- The comparison with the low value. -/
def lower : RangeTest → Comparison
  | between => .greaterThanOrEqual
  | notBetween => .lessThan

/-- The comparison with the high value. -/
def upper : RangeTest → Comparison
  | between => .lessThanOrEqual
  | notBetween => .greaterThan

/-- The connective between the comparisons. -/
def connective : RangeTest → Connective
  | between => .and
  | notBetween => .or

/-- What the test says of the truth values of its comparisons. -/
def holds : RangeTest → Bool → Bool → Bool
  | between, low, high => low && high
  | notBetween, low, high => low || high

/-- The criteria for the test. -/
def criteria : RangeTest → String → Value → Value → List Criterion
  | between => Criterion.between
  | notBetween => Criterion.notBetween

/-- The criteria for the test, with a connective in front if there is one. -/
def connected (test : RangeTest) (logical : Logical) (operand : String) (low high : Value) :
    Except Fault (List Criterion) :=
  match logical with
  | .undefined => .ok (test.criteria operand low high)
  | logical => Criterion.connect logical (test.criteria operand low high)

theorem connected_eq (test : RangeTest) (logical : Logical) (operand : String) (low high : Value) :
    test.connected logical operand low high =
      .ok [(Criterion.comparing operand test.lower low).withLogical logical,
        (Criterion.comparing operand test.upper high).withLogical test.connective.logical] := by
  cases test <;> cases logical <;> rfl

end RangeTest

/-! ## One level -/

/-- The token goes on with the run before by "and". -/
def Token.joins {α : Type} : Token α → Bool
  | .opening logical => logical == .and
  | .comparison logical _ => logical == .and
  | .closing => false

namespace Levels

variable {α : Type} {s : Levels} {l : Logical}

/-- The levels behind the two comparisons of a test. -/
def range (s : Levels) (test : RangeTest) (l : Logical) (low high : Bool) : Levels :=
  (s.next (.comparison l low)).next (.comparison test.connective.logical high)

/-- The levels behind a single comparison in place of the two. -/
def atom (s : Levels) (test : RangeTest) (l : Logical) (low high : Bool) : Levels :=
  s.next (.comparison l (test.holds low high))

theorem range_between (s : Levels) (l : Logical) (low high : Bool) :
    s.range .between l low high = s.atom .between l low high := by
  have hmeet := Bool.and_assoc (s.lead l).current low high
  exact congrArg (fun b => Levels.mk s.outer (some ⟨(s.lead l).before, b⟩)) hmeet

/-- Where no "and" goes on with what is before, a new run begins. -/
theorem lead_current (h : ¬ (s.current.isSome = true ∧ l = .and)) : (s.lead l).current = true := by
  obtain ⟨outer, current⟩ := s
  cases current with
  | none => rfl
  | some level =>
    cases l with
    | and => exact absurd ⟨rfl, rfl⟩ h
    | or => rfl
    | undefined => rfl

/-- In a new run, two comparisons with a connective have the value of one. -/
theorem value_range (h : (s.lead l).current = true) (test : RangeTest) (low high : Bool) :
    (s.range test l low high).value = (s.atom test l low high).value := by
  cases test with
  | between => rw [range_between]
  | notBetween =>
    show ((s.lead l).before || (s.lead l).current && low || true && high) =
      ((s.lead l).before || (s.lead l).current && (low || high))
    rw [h, Bool.true_and, Bool.true_and, Bool.true_and, Bool.or_assoc]

/-- Behind levels of one value, what does not go on by "and" is read alike. -/
theorem value_read_of_value {outer : List Level} {level level' : Level}
    (h : level.value = level'.value) {ts : List (Token Bool)}
    (hts : ∀ t ∈ ts.head?, t.joins = false) :
    (read ⟨outer, some level⟩ ts).value = (read ⟨outer, some level'⟩ ts).value := by
  cases ts with
  | nil => exact h
  | cons t ts =>
    have hnext : next ⟨outer, some level⟩ t = next ⟨outer, some level'⟩ t := by
      have hor : level.next = level'.next := congrArg (Level.mk · true) h
      have ht := hts t rfl
      cases t with
      | opening l =>
        cases l with
        | and => cases ht
        | or => exact congrArg (fun level => Levels.mk (level :: outer) none) hor
        | undefined => exact congrArg (fun level => Levels.mk (level :: outer) none) hor
      | comparison l b =>
        cases l with
        | and => cases ht
        | or => exact congrArg (fun level => Levels.mk outer (some (level.meet b))) hor
        | undefined => exact congrArg (fun level => Levels.mk outer (some (level.meet b))) hor
      | closing => exact congrArg (fun b => Levels.mk _ (some (Level.meet _ b))) h
    exact congrArg (fun s => (read s ts).value) hnext

/-- Two comparisons with "and", and any two without an "and" next to them, are read as one. -/
theorem value_read_range {test : RangeTest} {ts : List (Token Bool)}
    (h : test = .between ∨
      ¬ (s.current.isSome = true ∧ l = .and) ∧ ∀ t ∈ ts.head?, t.joins = false)
    (low high : Bool) :
    ((s.range test l low high).read ts).value = ((s.atom test l low high).read ts).value := by
  rcases h with rfl | ⟨hfront, hbehind⟩
  · rw [range_between]
  · exact value_read_of_value (value_range (lead_current hfront) test low high) hbehind

/-- Next to an "and", two comparisons with "or" can be told from one. -/
theorem exists_apart (hs : s.Open false) {ts : List (Token α)}
    (h : s.current.isSome = true ∧ l = .and ∨ ∃ t ∈ ts.head?, t.joins = true) :
    ∃ low high, ∃ values : List Bool, values.length = (ts.filterMap Token.leaf?).length ∧
      ((s.range .notBetween l low high).read (Token.valued values ts)).Apart
        ((s.atom .notBetween l low high).read (Token.valued values ts)) := by
  obtain ⟨outer, current⟩ := s
  by_cases hfront : current.isSome = true ∧ l = .and
  · -- The run before has failed, so the low one does not count, but the high one does.
    obtain ⟨hsome, rfl⟩ := hfront
    obtain ⟨level, rfl⟩ := Option.isSome_iff_exists.1 hsome
    obtain rfl := hs.current level rfl
    refine ⟨false, true, ?_⟩
    exact (Apart.here hs.outer ⟨rfl, rfl⟩).exists_read ts
  · -- The low one counts, although the next term fails.
    obtain ⟨t, ht, hjoins⟩ := h.resolve_left hfront
    obtain ⟨ts, rfl⟩ : ∃ ts', ts = t :: ts' := List.head?_eq_some_iff.1 ht
    have hlead : lead ⟨outer, current⟩ l = ⟨false, true⟩ := by
      cases current with
      | none => rfl
      | some level =>
        obtain rfl := hs.current level rfl
        cases l with
        | and => exact absurd ⟨rfl, rfl⟩ hfront
        | or => rfl
        | undefined => rfl
    have hrange :
        range ⟨outer, current⟩ .notBetween l true false = ⟨outer, some ⟨true, false⟩⟩ := by
      show Levels.mk outer (some (((lead _ l).meet true).next.meet false)) = _
      rw [hlead]
      rfl
    have hatom : atom ⟨outer, current⟩ .notBetween l true false = ⟨outer, some ⟨false, true⟩⟩ := by
      show Levels.mk outer (some ((lead _ l).meet true)) = _
      rw [hlead]
      rfl
    have hnext : (next ⟨outer, some ⟨true, false⟩⟩ (t.map fun _ => false)).Apart
        (next ⟨outer, some ⟨false, true⟩⟩ (t.map fun _ => false)) := by
      cases t with
      | opening l =>
        obtain rfl : l = .and := beq_iff_eq.1 hjoins
        exact .within [] (b := false) hs.outer ⟨rfl, rfl⟩ nofun nofun
      | comparison l a =>
        obtain rfl : l = .and := beq_iff_eq.1 hjoins
        exact .here hs.outer ⟨rfl, rfl⟩
      | closing => cases hjoins
    obtain ⟨values, hlength, hread⟩ := hnext.exists_read ts
    obtain ⟨values', hlength', hvalued⟩ := t.exists_valued_cons false hlength
    refine ⟨true, false, values', hlength', ?_⟩
    rw [hrange, hatom, hvalued]
    exact hread

end Levels

/-! ## Whole sequences -/

theorem Token.joins_valued {α : Type} (values : List Bool) (ts : List (Token α)) :
    (∀ t ∈ (valued values ts).head?, t.joins = false) ↔ ∀ t ∈ ts.head?, t.joins = false := by
  cases ts with
  | nil => simp [valued]
  | cons t ts => cases t <;> simp [valued, joins]

namespace RangeTest

variable {α : Type} {test : RangeTest} {l : Logical} {ts us : List (Token α)} {a a' b : α}

/-- The tokens of the two comparisons of a test. -/
def tokens (test : RangeTest) (l : Logical) (a a' : α) : List (Token α) :=
  [.comparison l a, .comparison test.connective.logical a']

theorem read_tokens (a a' : α) {before : List Bool}
    (hbefore : before.length = (ts.filterMap Token.leaf?).length) (low high : Bool)
    (behind : List Bool) :
    Levels.empty.read (Token.valued (before ++ low :: high :: behind)
        (ts ++ test.tokens l a a' ++ us)) =
      ((Levels.empty.read (Token.valued before ts)).range test l low high).read
        (Token.valued behind us) := by
  rw [List.append_assoc, Token.valued_append hbefore, Levels.read_append]
  rfl

theorem read_comparison (b : α) {before : List Bool}
    (hbefore : before.length = (ts.filterMap Token.leaf?).length) (low high : Bool)
    (behind : List Bool) :
    Levels.empty.read (Token.valued (before ++ test.holds low high :: behind)
        (ts ++ .comparison l b :: us)) =
      ((Levels.empty.read (Token.valued before ts)).atom test l low high).read
        (Token.valued behind us) := by
  rw [Token.valued_append hbefore, Levels.read_append]
  rfl

/-- In a whole expression, the two comparisons of a test have the value of a single one in their
place under all values of the others exactly when "and" is the connective between them, or no "and"
stands in front of them or behind. -/
theorem actsAsOne_iff (b : α) {o : Outline α} {e? : Option (Expression α)}
    (h : Outline.empty.read? ts = some o)
    (h' : Outline.empty.read? (ts ++ test.tokens l a a' ++ us) = some ⟨[], e?⟩) :
    (∀ (before : List Bool) (low high : Bool) (behind : List Bool),
      before.length = (ts.filterMap Token.leaf?).length →
      behind.length = (us.filterMap Token.leaf?).length →
      (Levels.empty.read (Token.valued (before ++ low :: high :: behind)
          (ts ++ test.tokens l a a' ++ us))).value =
        (Levels.empty.read (Token.valued (before ++ test.holds low high :: behind)
          (ts ++ .comparison l b :: us))).value) ↔
    test = .between ∨
      ¬ (o.current.isSome = true ∧ l = .and) ∧ ∀ t ∈ us.head?, t.joins = false := by
  constructor
  · intro hvalue
    rw [or_iff_not_imp_left]
    intro htest
    obtain rfl : test = .notBetween := by
      cases test with
      | between => exact absurd rfl htest
      | notBetween => rfl
    obtain ⟨before, hbefore, hopen⟩ := exists_open ts false
    by_contra hnext
    have hand : (Levels.empty.read (Token.valued before ts)).current.isSome = true ∧ l = .and ∨
        ∃ t ∈ us.head?, t.joins = true := by
      rw [(Levels.shape_read h hbefore).2]
      by_contra hnone
      obtain ⟨hfront, hbehind⟩ := not_or.1 hnone
      refine hnext ⟨hfront, fun t ht => ?_⟩
      exact Bool.eq_false_iff.2 fun hjoins => hbehind ⟨t, ht, hjoins⟩
    obtain ⟨low, high, behind, hbehind, hapart⟩ := Levels.exists_apart hopen hand
    rw [← read_tokens a a' hbefore, ← read_comparison b hbefore] at hapart
    refine hapart.value_ne ?_ (hvalue before low high behind hbefore hbehind)
    have hlength : (before ++ low :: high :: behind).length =
        ((ts ++ tokens .notBetween l a a' ++ us).filterMap Token.leaf?).length := by
      simp [tokens, Token.leaf?, hbefore, hbehind]
    exact List.length_eq_zero_iff.1 (Levels.shape_read h' hlength).1
  · intro hnext before low high behind hbefore _
    rw [read_tokens a a' hbefore, read_comparison b hbefore]
    refine Levels.value_read_range ?_ low high
    rwa [(Levels.shape_read h hbefore).2, Token.joins_valued]

end RangeTest

end QueryCriteria
