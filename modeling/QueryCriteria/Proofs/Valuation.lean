import QueryCriteria.Proofs.Substitution
/-!
# Values by position

Truth values given to comparisons by their position. An expression that is read from tokens is also
read from the values in place of the comparisons, and whatever stands for a comparison goes along
with its value (`Outline.exists_valued`).
-/

namespace QueryCriteria

variable {α β : Type}

namespace Token

/-- Tokens with truth values in place of their comparisons, in order. -/
def valued : List Bool → List (Token α) → List (Token Bool)
  | _, [] => []
  | values, .opening logical :: ts => .opening logical :: valued values ts
  | values, .comparison logical _ :: ts =>
    .comparison logical (values.headD false) :: valued values.tail ts
  | values, .closing :: ts => .closing :: valued values ts

/-- It does not matter what stands for the comparisons. -/
theorem valued_map (f : α → β) (values : List Bool) (ts : List (Token α)) :
    valued values (ts.map (Token.map f)) = valued values ts := by
  induction ts generalizing values with
  | nil => rfl
  | cons t ts ih => cases t <;> simp [Token.map, valued, ih]

theorem valued_append {values : List Bool} {ts : List (Token α)}
    (h : values.length = (ts.filterMap leaf?).length) (more : List Bool) (us : List (Token α)) :
    valued (values ++ more) (ts ++ us) = valued values ts ++ valued more us := by
  induction ts generalizing values with
  | nil =>
    obtain rfl : values = [] := List.length_eq_zero_iff.1 h
    rfl
  | cons t ts ih =>
    cases t with
    | opening logical => exact congrArg (Token.opening logical :: ·) (ih h)
    | closing => exact congrArg (Token.closing :: ·) (ih h)
    | comparison logical a =>
      cases values with
      | nil => simp [leaf?] at h
      | cons value values =>
        exact congrArg (Token.comparison logical value :: ·) (ih (Nat.succ.inj h))

/-- Tokens of truth values have their own. -/
theorem valued_leaves (ts : List (Token Bool)) : valued (ts.filterMap leaf?) ts = ts := by
  induction ts with
  | nil => rfl
  | cons t ts ih =>
    cases t with
    | opening logical => exact congrArg (Token.opening logical :: ·) ih
    | closing => exact congrArg (Token.closing :: ·) ih
    | comparison logical value => exact congrArg (Token.comparison logical value :: ·) ih

/-- Truth values may stand beside the comparisons. -/
theorem exists_beside {values : List Bool} {ts : List (Token α)}
    (h : values.length = (ts.filterMap leaf?).length) :
    ∃ us : List (Token (Bool × α)), us.map (Token.map Prod.snd) = ts ∧
      us.map (Token.map Prod.fst) = valued values ts ∧
      (us.filterMap leaf?).map Prod.fst = values := by
  induction ts generalizing values with
  | nil => exact ⟨[], rfl, rfl, (List.length_eq_zero_iff.1 h).symm⟩
  | cons t ts ih =>
    cases t with
    | opening logical =>
      obtain ⟨us, rfl, hvalued, hvalues⟩ := ih h
      exact ⟨.opening logical :: us, rfl, congrArg (Token.opening logical :: ·) hvalued, hvalues⟩
    | closing =>
      obtain ⟨us, rfl, hvalued, hvalues⟩ := ih h
      exact ⟨.closing :: us, rfl, congrArg (Token.closing :: ·) hvalued, hvalues⟩
    | comparison logical a =>
      cases values with
      | nil => simp [leaf?] at h
      | cons value values =>
        obtain ⟨us, rfl, hvalued, hvalues⟩ := ih (Nat.succ.inj h)
        exact ⟨.comparison logical (value, a) :: us, rfl,
          congrArg (Token.comparison logical value :: ·) hvalued, congrArg (value :: ·) hvalues⟩

end Token

namespace Outline

theorem bind_leaf (f : α → β) (x? : Option (Expression α)) :
    bind (fun a => .leaf (f a)) ⟨[], x?⟩ = ⟨[], x?.map (·.map f)⟩ := by
  cases x? with
  | none => rfl
  | some x => exact congrArg (fun e => Outline.mk [] (some e)) (x.bind_leaf f)

/-- Reading whole expressions goes along when other things stand for the comparisons. -/
theorem read?_map_eq_some (f : α → β) {ts : List (Token α)} {e? : Option (Expression β)} :
    empty.read? (ts.map (Token.map f)) = some ⟨[], e?⟩ ↔
      ∃ x?, empty.read? ts = some ⟨[], x?⟩ ∧ e? = x?.map (·.map f) := by
  have hread : empty.read? (ts.map (Token.map f)) =
      (empty.read? ts).map (bind fun a => .leaf (f a)) := read?_map f empty ts
  rw [hread, Option.map_eq_some_iff]
  constructor
  · rintro ⟨⟨outer, x?⟩, hx, heq⟩
    obtain rfl : outer = [] := List.map_eq_nil_iff.1 (congrArg Outline.outer heq)
    rw [bind_leaf] at heq
    exact ⟨x?, hx, (Outline.mk.inj heq).2.symm⟩
  · rintro ⟨x?, hx, rfl⟩
    exact ⟨_, hx, bind_leaf f x?⟩

theorem leaves_closed (e? : Option (Expression α)) :
    leaves ⟨[], e?⟩ = e?.elim [] (·.leaves) := rfl

/-- What is read from tokens is read from truth values in place of the comparisons too, and there
is an expression of both. -/
theorem exists_valued {ts : List (Token α)} {e? : Option (Expression α)}
    (h : empty.read? ts = some ⟨[], e?⟩) {values : List Bool}
    (hlength : values.length = (ts.filterMap Token.leaf?).length) :
    ∃ x? : Option (Expression (Bool × α)), e? = x?.map (·.map Prod.snd) ∧
      x?.elim [] (fun x => x.leaves.map Prod.fst) = values ∧
      empty.read? (Token.valued values ts) = some ⟨[], x?.map (·.map Prod.fst)⟩ := by
  obtain ⟨us, rfl, hvalued, hvalues⟩ := Token.exists_beside hlength
  obtain ⟨x?, hx, he⟩ := (read?_map_eq_some Prod.snd).1 h
  refine ⟨x?, he, ?_, ?_⟩
  · rw [← hvalues, ← leaves_of_read? hx, leaves_closed]
    cases x? <;> rfl
  · rw [← hvalued]
    exact (read?_map_eq_some Prod.fst).2 ⟨x?, hx, rfl⟩

end Outline

end QueryCriteria
