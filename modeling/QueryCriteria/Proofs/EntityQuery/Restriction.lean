import QueryCriteria.EntityQuery.Draft
import QueryCriteria.Proofs.Outcome
import QueryCriteria.Proofs.Reading
/-!
# Restrictions of entity queries

The comparisons that an entity query can express, apart from the connective and the bracket that
their criteria carry, and their numbers: each one that takes a value is numbered by the values up to
its own. A draft has the predicate of every such comparison and of no other (`predicate_criterion`,
`exists_restriction`), under the number of the next parameter.
-/

open QueryCriteria.EntityQuery (Predicate binarySymbol membershipKeyword testKeyword)

namespace QueryCriteria

/-! ## Parameters -/

namespace EntityQuery

/-- The name of the parameter with a number. -/
def parameterName (n : Nat) : String := "param" ++ toString n

theorem parameterName_inj {n m : Nat} (h : parameterName n = parameterName m) : n = m := by
  have hdigits : Nat.toDigits 10 n = Nat.toDigits 10 m := by
    simpa [parameterName, ← String.toList_inj] using h
  rw [← Nat.ofDigitChars_ten_toDigits (n := n), hdigits, Nat.ofDigitChars_ten_toDigits]

/-- Values under the names of their numbers, which count from one. -/
def named (values : List Value) : List (String × Value) :=
  values.mapIdx fun i value => (parameterName (i + 1), value)

theorem length_named (values : List Value) : (named values).length = values.length := by
  simp [named]

theorem map_fst_named (values : List Value) :
    (named values).map (·.1) = values.mapIdx fun i _ => parameterName (i + 1) := by
  apply List.ext_getElem <;> simp [named]

theorem named_append (values more : List Value) : named values <+: named (values ++ more) := by
  rw [named, named, List.mapIdx_append]
  exact List.prefix_append _ _

namespace Parameters

variable {p : Parameters} {values : List Value}

theorem nextName_eq (h : p.toList = named values) :
    p.nextName = parameterName (values.length + 1) := by
  have hsize : p.bindings.size = values.length := by
    rw [← length_named, ← h]
    rfl
  rw [nextName, hsize]
  rfl

/-- The next value is bound behind the others and replaces none. -/
theorem toList_bind (h : p.toList = named values) (value : Value) :
    (p.bind value).toList = named (values ++ [value]) := by
  have hnew : p.nextName ∉ p.bindings.entries.map (·.1) := by
    intro hmem
    obtain ⟨⟨name, v⟩, hentry, hname⟩ := List.mem_map.1 hmem
    have hentry : (name, v) ∈ named values := h ▸ hentry
    obtain ⟨i, hi, heq⟩ := List.mem_mapIdx.1 hentry
    -- The number of a name that is there is at most the number of values.
    have hnumber : i + 1 = values.length + 1 := by
      apply parameterName_inj
      rw [← nextName_eq h, ← hname]
      exact congrArg Prod.fst heq
    omega
  have hlast : (p.bind value).toList = p.toList ++ [(p.nextName, value)] :=
    OrderedMap.insertPair_of_notMem hnew
  rw [hlast, h, nextName_eq h, named, named, List.mapIdx_concat]

end Parameters

end EntityQuery

/-! ## Restrictions -/

/-- A comparison with what it takes: an operand that is not blank, and a value unless it tests the
operand alone. -/
structure Restriction where
  operand : String
  comparison : Comparison
  value : Option Value
  operand_not_blank : Text.isBlank operand = false
  comparison_defined : Operator.isDefined comparison = true
  value_isSome : value.isSome = decide (comparison.shape ≠ .unary)

/-- A criterion without its connective and bracket. -/
def Criterion.bare (c : Criterion) : Criterion := (c.withLogical .undefined).withEnclosure .undefined

namespace Restriction

/-- The criterion for a restriction alone. -/
def bare (r : Restriction) : Criterion := Criterion.restriction r.operand r.comparison r.value

/-- The criterion for a restriction with a logical operator and a bracket. -/
def criterion (r : Restriction) (logical : Logical) (enclosure : Enclosure) : Criterion :=
  (r.bare.withLogical logical).withEnclosure enclosure

variable (r : Restriction) (logical : Logical) (enclosure : Enclosure)

theorem bare_criterion : (r.criterion logical enclosure).bare = r.bare := rfl

/-- A criterion is that of one restriction at most. -/
theorem criterion_inj {r r' : Restriction} {l l' : Logical} {e e' : Enclosure}
    (h : r.criterion l e = r'.criterion l' e') : r = r' := by
  have hoperand : some r.operand = some r'.operand := congrArg Criterion.operand h
  have hcomparison : r.comparison = r'.comparison := congrArg Criterion.comparison h
  have hvalue : r.value = r'.value := congrArg Criterion.value h
  cases r
  cases r'
  simp_all

theorem role_criterion : (r.criterion logical enclosure).role = .ok .restriction := by
  have hc : Operator.isDefined (r.criterion logical enclosure).comparison = true :=
    r.comparison_defined
  unfold Criterion.role
  rw [hc]
  rfl

theorem compared?_criterion :
    (r.criterion logical enclosure).compared? = some (r.criterion logical enclosure) :=
  if_pos r.comparison_defined

/-- A comparison that is defined and not unary takes one value. -/
theorem value_cases :
    (r.comparison.shape = .unary ∧ r.value = none) ∨
      ((r.comparison.shape = .binary ∨ r.comparison.shape = .membership) ∧
        ∃ value, r.value = some value) := by
  have hdefined := r.comparison_defined
  have hvalue := r.value_isSome
  cases hs : r.comparison.shape with
  | unary =>
    left
    simpa [hs] using hvalue
  | binary =>
    right
    exact ⟨.inl rfl, Option.isSome_iff_exists.1 (by simpa [hs] using hvalue)⟩
  | membership =>
    right
    exact ⟨.inr rfl, Option.isSome_iff_exists.1 (by simpa [hs] using hvalue)⟩
  | none =>
    exfalso
    cases hc : r.comparison with
    | undefined =>
      rw [hc] at hdefined
      cases hdefined
    | _ => simp [hc, Comparison.shape] at hs

/-! ## Predicates -/

/-- The predicate of a restriction, where `n` is the number of its parameter if it has one. -/
def predicate (rootAlias : String) (n : Nat) (r : Restriction) : Predicate :=
  ⟨rootAlias ++ "." ++ r.operand, r.comparison,
    r.value.map fun _ => EntityQuery.parameterName n⟩

/-- The text of a restriction: the parameter stands behind the symbol of a comparison, and in front
of the keyword for membership. -/
def text (rootAlias : String) (n : Nat) (r : Restriction) : String :=
  let path := rootAlias ++ "." ++ r.operand
  let name := EntityQuery.parameterName n
  match r.comparison.shape with
  | .binary => path ++ " " ++ binarySymbol r.comparison ++ " :" ++ name
  | .membership => ":" ++ name ++ " " ++ membershipKeyword r.comparison ++ " " ++ path
  | .unary | .none => path ++ " " ++ testKeyword r.comparison

theorem text_predicate (rootAlias : String) (n : Nat) :
    (r.predicate rootAlias n).text = r.text rootAlias n := by
  unfold Predicate.text predicate text
  rcases r.value_cases with ⟨hs, hv⟩ | ⟨hs | hs, value, hv⟩
  · simp [hs, hv]
  · simp [hs, hv]
  · simp [hs, hv]

end Restriction

namespace EntityQuery.Draft

variable {d : Draft} {values : List Value}

/-- A draft has the predicate of every restriction, under the number of the next parameter. -/
theorem predicate_criterion (h : d.parameters.toList = named values) (r : Restriction)
    (logical : Logical) (enclosure : Enclosure) : d.predicate (r.criterion logical enclosure) =
      .ok (r.predicate d.rootAlias (values.length + 1), r.value) := by
  have hoperand : (r.criterion logical enclosure).requireOperand "restriction" = .ok r.operand := by
    simp [Criterion.requireOperand, Restriction.criterion, Restriction.bare, Criterion.restriction,
      Criterion.withLogical, Criterion.withEnclosure, r.operand_not_blank]
  have hcomparison : (r.criterion logical enclosure).comparison = r.comparison := rfl
  have hval : (r.criterion logical enclosure).value = r.value := rfl
  unfold predicate Criterion.requireValue
  rw [hoperand, ok_bind, hcomparison, hval, Parameters.nextName_eq h, Restriction.predicate]
  rcases r.value_cases with ⟨hs, hv⟩ | ⟨hs | hs, value, hv⟩
  · simp [hs, hv]
  · rw [hs, hv]
    rfl
  · rw [hs, hv]
    rfl

/-- What a draft has a predicate for is the criterion of a restriction. -/
theorem exists_restriction {c : Criterion} {p : Predicate} {value : Option Value}
    (hr : c.role = .ok .restriction) (hp : d.predicate c = .ok (p, value)) :
    ∃ r : Restriction, c = r.criterion c.logical c.enclosure := by
  obtain ⟨operand, hoperand, hp⟩ := bind_eq_ok_iff.1 hp
  have hblank : c.operand = some operand ∧ Text.isBlank operand = false := by
    unfold Criterion.requireOperand at hoperand
    grind
  have hvalue : c.value.isSome = decide (c.comparison.shape ≠ .unary) := by
    unfold Criterion.requireValue at hp
    cases hs : c.comparison.shape <;> cases hv : c.value <;> simp only [hs, hv] at hp <;>
      first | rfl | cases hp
  obtain ⟨hjoin, horder⟩ := Criterion.join_order_of_restriction hr
  obtain ⟨hoperand, hblank⟩ := hblank
  refine ⟨⟨operand, c.comparison, c.value, hblank, Criterion.isDefined_of_restriction hr, hvalue⟩,
    ?_⟩
  obtain ⟨_, _, _, _, _, _, _⟩ := c
  subst hoperand hjoin horder
  rfl

end EntityQuery.Draft

/-! ## Numbers -/

/-- The values that restrictions bind, in order. -/
def valuesOf (rs : List Restriction) : List Value := rs.filterMap (·.value)

theorem valuesOf_append (rs rs' : List Restriction) :
    valuesOf (rs ++ rs') = valuesOf rs ++ valuesOf rs' := List.filterMap_append

/-- Restrictions with the numbers of their parameters, where `n` is the next one. -/
def numberFrom (n : Nat) : List Restriction → List (Nat × Restriction)
  | [] => []
  | r :: rs => (n, r) :: numberFrom (if r.value.isSome then n + 1 else n) rs

theorem map_snd_numberFrom (n : Nat) (rs : List Restriction) :
    (numberFrom n rs).map Prod.snd = rs := by
  induction rs generalizing n with
  | nil => rfl
  | cons r rs ih => rw [numberFrom, List.map_cons, ih]

/-- The parameters of numbered restrictions have the numbers from the first on. -/
theorem parameter_numberFrom (rootAlias : String) (n : Nat) (rs : List Restriction) :
    (numberFrom n rs).filterMap (fun p => (p.2.predicate rootAlias p.1).parameter) =
      (valuesOf rs).mapIdx fun i _ => EntityQuery.parameterName (n + i) := by
  induction rs generalizing n with
  | nil => rfl
  | cons r rs ih =>
    cases hv : r.value with
    | none => simpa [numberFrom, valuesOf, Restriction.predicate, hv] using ih n
    | some value =>
      have hshift : ∀ i, n + 1 + i = n + (i + 1) := by omega
      simpa [numberFrom, valuesOf, Restriction.predicate, hv, List.mapIdx_cons, hshift] using
        ih (n + 1)

end QueryCriteria
