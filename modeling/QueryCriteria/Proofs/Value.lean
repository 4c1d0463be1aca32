import QueryCriteria.Proofs.Json.RoundTrip
import QueryCriteria.Value.Json
/-!
# Values through JSON

A value without floats is read back from its tree as it was, except that every list of exactly two
strings has become an entity (`ofTree?_toJson`). A value that comes from a tree has no such list
(`ofTree?_normal`), so what has been read once is read back as it is.
-/

namespace QueryCriteria

/-! ## Integers -/

namespace Json

theorem Number.absorb_of_lt (cs : List Char) (n : Nat) (h : Nat.ofDigitChars 10 cs n < Nat.pow 2 64) :
    absorb n cs = (Nat.ofDigitChars 10 cs n, []) := by
  induction cs generalizing n with
  | nil => rfl
  | cons c cs ih =>
    rw [Nat.ofDigitChars_cons] at h ⊢
    have hnext : 10 * n + (c.toNat - '0'.toNat) < Nat.pow 2 64 :=
      Nat.lt_of_le_of_lt (le_ofDigitChars cs _) h
    simp only [absorb, hnext, if_true, ih _ h]

/-- A number written from an integer of 64 bits denotes that integer. -/
theorem Number.meaning?_ofInt (i : Int64) :
    (Number.ofInt i.toInt).meaning? = some (.integer i) := by
  have hlt : i.toInt < 2 ^ 63 := i.toInt_lt
  have hle : -2 ^ 63 ≤ i.toInt := i.le_toInt
  -- The digits of an integer of 64 bits are all absorbed; none is left to make it a float.
  have habsorb : absorb 0 (digits i.toInt.natAbs) = (i.toInt.natAbs, []) := by
    have hvalue : Nat.ofDigitChars 10 (Nat.toDigits 10 i.toInt.natAbs) 0 = i.toInt.natAbs :=
      Nat.ofDigitChars_ten_toDigits
    rw [digits, absorb_of_lt _ _ (by rw [hvalue]; simp only [Nat.pow_eq]; omega), hvalue]
  simp only [meaning?, ofInt, habsorb]
  by_cases hneg : i.toInt < 0
  · have hsmall : ¬ (i.toInt.natAbs = 0 ∨ Nat.pow 2 63 < i.toInt.natAbs) := by
      simp only [Nat.pow_eq]
      omega
    have hvalue : -(i.toInt.natAbs : Int) = i.toInt := by omega
    rw [if_pos (by simp), if_pos (by simpa using hneg), if_neg hsmall, hvalue, Int64.ofInt_toInt]
  · have hsmall : i.toInt.natAbs < Nat.pow 2 63 := by
      simp only [Nat.pow_eq]
      omega
    have hvalue : Int64.ofNat i.toInt.natAbs = i := by
      rw [← Int64.ofInt_eq_ofNat, Int.natAbs_of_nonneg (by omega), Int64.ofInt_toInt]
    rw [if_pos (by simp), if_neg (by simpa using hneg), if_pos hsmall, hvalue]

end Json

namespace Value

/-! ## Floats and pairs -/

mutual
/-- Whether there is a float in a value, at any depth. -/
def hasFloat : Value → Bool
  | .float _ => true
  | .list items => anyFloat items
  | _ => false

def anyFloat : List Value → Bool
  | [] => false
  | item :: items => item.hasFloat || anyFloat items
end

/-- Whether a value is a list of exactly two strings. -/
def isPair : Value → Bool
  | .list [.string _, .string _] => true
  | _ => false

mutual
/-- Whether there is a list of exactly two strings in a value, at any depth. -/
def hasPair : Value → Bool
  | .list items => isPair (.list items) || anyPair items
  | _ => false

def anyPair : List Value → Bool
  | [] => false
  | item :: items => item.hasPair || anyPair items
end

mutual
/-- The value with an entity in place of every list of exactly two strings, at any depth. -/
def asRead : Value → Value
  | .list [.string type, .string id] => .entity type id
  | .list items => .list (asReadItems items)
  | v => v

def asReadItems : List Value → List Value
  | [] => []
  | item :: items => item.asRead :: asReadItems items
end

theorem asRead_list {items : List Value} (h : isPair (.list items) = false) :
    asRead (.list items) = .list (asReadItems items) := by
  rw [asRead]
  rintro type id rfl
  cases h

mutual
theorem asRead_eq_self_iff : ∀ v : Value, v.asRead = v ↔ v.hasPair = false
  | .string _ | .integer _ | .float _ | .boolean _ | .entity _ _ => by simp [asRead, hasPair]
  | .list items => by
    cases hpair : isPair (.list items) with
    | true =>
      unfold isPair at hpair
      split at hpair
      · next heq =>
        cases heq
        simp [asRead, hasPair, isPair]
      · cases hpair
    | false => simp [asRead_list hpair, hasPair, hpair, asReadItems_eq_self_iff items]

theorem asReadItems_eq_self_iff : ∀ items : List Value, asReadItems items = items ↔ anyPair items = false
  | [] => by simp [asReadItems, anyPair]
  | item :: items => by
    simp [asReadItems, anyPair, asRead_eq_self_iff item, asReadItems_eq_self_iff items]
end

/-! ## Trees of values -/

mutual
theorem plain_toJson : ∀ v : Value, v.hasFloat = false → v.toJson.Plain
  | .string s, _ => .string s
  | .integer i, _ => .int i.toInt
  | .boolean b, _ => .bool b
  | .entity type id, _ => by
    apply Json.Plain.object
    simp only [List.forall_mem_cons, List.not_mem_nil, false_implies, implies_true, and_true]
    exact ⟨.string type, .string id⟩
  | .list items, h => .array (plain_toJsonItems items h)

theorem plain_toJsonItems :
    ∀ items : List Value, anyFloat items = false → ∀ j ∈ toJsonItems items, j.Plain
  | [], _ => by simp [toJsonItems]
  | item :: items, h => by
    simp only [anyFloat, Bool.or_eq_false_iff] at h
    simp only [toJsonItems, List.forall_mem_cons]
    exact ⟨plain_toJson item h.1, plain_toJsonItems items h.2⟩
end

mutual
theorem isMeaningful_toJson : ∀ v : Value, v.hasFloat = false → v.toJson.isMeaningful = true
  | .string _, _ | .boolean _, _ | .entity _ _, _ => rfl
  | .integer i, _ => by simp [toJson, Json.int, Json.isMeaningful, Json.Number.meaning?_ofInt]
  | .list items, h => areMeaningful_toJsonItems items h

theorem areMeaningful_toJsonItems :
    ∀ items : List Value, anyFloat items = false → Json.areMeaningful (toJsonItems items) = true
  | [], _ => rfl
  | item :: items, h => by
    simp only [anyFloat, Bool.or_eq_false_iff] at h
    simp [toJsonItems, Json.areMeaningful, isMeaningful_toJson item h.1,
      areMeaningful_toJsonItems items h.2]
end

theorem eq_string_of_toJson {v : Value} {s : String} (h : v.toJson = .string s) : v = .string s := by
  cases v with
  | string s' =>
    rw [toJson, Json.string.injEq] at h
    rw [h]
  | float x =>
    rw [toJson, Json.float] at h
    cases hnumber : Json.Number.ofFloat? x <;> rw [hnumber] at h <;> cases h
  | _ => cases h

/-- Only a list of exactly two strings is written as one. -/
theorem isPair_of_toJsonItems {items : List Value} {type id : String}
    (h : toJsonItems items = [.string type, .string id]) : isPair (.list items) = true := by
  obtain ⟨a, items, rfl⟩ := List.exists_cons_of_ne_nil (l := items) (by rintro rfl; cases h)
  rw [toJsonItems, List.cons.injEq] at h
  obtain ⟨b, items, rfl⟩ := List.exists_cons_of_ne_nil (l := items) (by rintro rfl; cases h.2)
  rw [toJsonItems, List.cons.injEq] at h
  cases items with
  | nil =>
    rw [eq_string_of_toJson h.1, eq_string_of_toJson h.2.1]
    rfl
  | cons c items => cases h.2.2

mutual
/-- A value without floats is read back from its tree. -/
theorem ofTree?_toJson : ∀ v : Value, v.hasFloat = false → ofTree? v.toJson = some v.asRead
  | .string _, _ | .boolean _, _ | .entity _ _, _ => by rfl
  | .integer i, _ => by simp [toJson, Json.int, ofTree?, Json.Number.meaning?_ofInt, asRead]
  | .list items, h => by
    cases hpair : isPair (.list items) with
    | true =>
      unfold isPair at hpair
      split at hpair
      · next heq =>
        cases heq
        rfl
      · cases hpair
    | false =>
      -- The items are not written as two strings, so the array is not read as an entity.
      rw [asRead_list hpair, toJson, ofTree?, ofTrees?_toJsonItems items h, Option.map_some]
      intro type id hitems
      exact Bool.noConfusion ((isPair_of_toJsonItems hitems).symm.trans hpair)

theorem ofTrees?_toJsonItems : ∀ items : List Value, anyFloat items = false →
    ofTrees? (toJsonItems items) = some (asReadItems items)
  | [], _ => rfl
  | item :: items, h => by
    simp only [anyFloat, Bool.or_eq_false_iff] at h
    simp [toJsonItems, ofTrees?, asReadItems, ofTree?_toJson item h.1,
      ofTrees?_toJsonItems items h.2]
end

/-! ## Values from trees -/

/-- An array is read as an entity when it is two strings, else as a list. -/
theorem ofTree?_array {items : List Json} {v : Value} (h : ofTree? (.array items) = some v) :
    (∃ type id, items = [.string type, .string id] ∧ v = .entity type id) ∨
      (∀ type id, items ≠ [.string type, .string id]) ∧
        ∃ values, ofTrees? items = some values ∧ v = .list values := by
  by_cases hpair : ∃ type id, items = [.string type, .string id]
  · obtain ⟨type, id, rfl⟩ := hpair
    cases h
    exact .inl ⟨type, id, rfl, rfl⟩
  · have hne : ∀ type id, items ≠ [.string type, .string id] :=
      fun type id heq => hpair ⟨type, id, heq⟩
    rw [ofTree?, Option.map_eq_some_iff] at h
    · obtain ⟨values, hvalues, rfl⟩ := h
      exact .inr ⟨hne, values, hvalues, rfl⟩
    · exact hne

theorem ofTree?_object {members : List (String × Json)} {v : Value}
    (h : ofTree? (.object members) = some v) : ∃ type id, v = .entity type id := by
  unfold ofTree? at h
  split at h
  · cases h
    exact ⟨_, _, rfl⟩
  · cases h

theorem ofTree?_number {n : Json.Number} {v : Value} (h : ofTree? (.number n) = some v) :
    (∃ i, v = .integer i) ∨ ∃ x, v = .float x := by
  rw [ofTree?, Option.map_eq_some_iff] at h
  obtain ⟨meaning, -, rfl⟩ := h
  cases meaning with
  | integer i => exact .inl ⟨i, rfl⟩
  | float x => exact .inr ⟨x, rfl⟩

theorem eq_string_of_ofTree? {j : Json} {s : String} (h : ofTree? j = some (.string s)) :
    j = .string s := by
  cases j with
  | string s' =>
    cases h
    rfl
  | number n => rcases ofTree?_number h with ⟨i, hv⟩ | ⟨x, hv⟩ <;> cases hv
  | array items => rcases ofTree?_array h with ⟨type, id, -, hv⟩ | ⟨-, values, -, hv⟩ <;> cases hv
  | object members =>
    obtain ⟨type, id, hv⟩ := ofTree?_object h
    cases hv
  | _ => cases h

theorem eq_cons_of_ofTrees? {items : List Json} {value : Value} {values : List Value}
    (h : ofTrees? items = some (value :: values)) :
    ∃ j js, items = j :: js ∧ ofTree? j = some value ∧ ofTrees? js = some values := by
  cases items with
  | nil => cases h
  | cons j js =>
    rw [ofTrees?] at h
    split at h
    · next hvalue hvalues =>
      cases h
      exact ⟨j, js, rfl, hvalue, hvalues⟩
    · cases h

/-- Only two strings are read as two strings. -/
theorem isPair_of_ofTrees? {items : List Json} {values : List Value}
    (hne : ∀ type id, items ≠ [.string type, .string id]) (h : ofTrees? items = some values) :
    isPair (.list values) = false := by
  rw [← Bool.not_eq_true]
  intro hpair
  unfold isPair at hpair
  split at hpair
  · next heq =>
    cases heq
    obtain ⟨j, js, rfl, hj, hjs⟩ := eq_cons_of_ofTrees? h
    obtain ⟨j', js, rfl, hj', hjs⟩ := eq_cons_of_ofTrees? hjs
    cases js with
    | nil => exact hne _ _ (by rw [eq_string_of_ofTree? hj, eq_string_of_ofTree? hj'])
    | cons j'' js =>
      rw [ofTrees?] at hjs
      split at hjs <;> cases hjs
  · cases hpair

theorem height_float (x : Float) : (Json.float x).height = 0 := by
  rw [Json.float]
  cases Json.Number.ofFloat? x <;> rfl

mutual
/-- A value that comes from a tree has no list of two strings, and is nested no deeper. -/
theorem ofTree?_normal : ∀ (j : Json) (v : Value), ofTree? j = some v →
    v.hasPair = false ∧ v.toJson.height ≤ j.height
  | .null, _, h | .unpaired, _, h => by cases h
  | .bool b, _, h | .string s, _, h => by
    cases h
    exact ⟨rfl, Nat.le_refl 0⟩
  | .number n, v, h => by
    rcases ofTree?_number h with ⟨i, rfl⟩ | ⟨x, rfl⟩
    · exact ⟨rfl, Nat.le_refl 0⟩
    · exact ⟨rfl, Nat.le_of_eq (height_float x)⟩
  | .object members, v, h => by
    obtain ⟨type, id, rfl⟩ := ofTree?_object h
    exact ⟨rfl, by simp [toJson, Json.height, Json.heightMembers]⟩
  | .array items, v, h => by
    rcases ofTree?_array h with ⟨type, id, rfl, rfl⟩ | ⟨hne, values, hvalues, rfl⟩
    · exact ⟨rfl, by simp [toJson, Json.height, Json.heightMembers, Json.heightItems]⟩
    · obtain ⟨hitems, hheight⟩ := ofTrees?_normal items values hvalues
      refine ⟨?_, Nat.succ_le_succ hheight⟩
      rw [hasPair, isPair_of_ofTrees? hne hvalues, hitems]
      rfl

theorem ofTrees?_normal : ∀ (items : List Json) (values : List Value), ofTrees? items = some values →
    anyPair values = false ∧ Json.heightItems (toJsonItems values) ≤ Json.heightItems items
  | [], _, h => by
    cases h
    exact ⟨rfl, Nat.le_refl 0⟩
  | j :: js, values, h => by
    cases values with
    | nil =>
      rw [ofTrees?] at h
      split at h <;> cases h
    | cons value values =>
      obtain ⟨_, _, heq, hj, hjs⟩ := eq_cons_of_ofTrees? h
      cases heq
      obtain ⟨hpair, hheight⟩ := ofTree?_normal j value hj
      obtain ⟨hpairs, hheights⟩ := ofTrees?_normal js values hjs
      simp only [anyPair, hpair, hpairs, toJsonItems, Json.heightItems]
      exact ⟨rfl, by omega⟩
end

end Value

end QueryCriteria
