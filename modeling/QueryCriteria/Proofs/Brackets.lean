/-!
# Brackets

Lists in which some elements open a bracket and some close one. What a list does to the number of
open brackets is told by its counts, and what happens on the way by the counts of its beginnings.
-/

namespace QueryCriteria

/-- Which elements open a bracket, and which close one. -/
structure Brackets (α : Type) where
  opens : α → Bool
  closes : α → Bool
  closes_of_opens : ∀ a, opens a = true → closes a = false

namespace Brackets

variable {α : Type} (b : Brackets α)

/-- Nothing is closed that has not been opened before. -/
def Guarded (xs : List α) : Prop :=
  ∀ n, (xs.take n).countP b.closes ≤ (xs.take n).countP b.opens

/-- Moreover, all that is opened is closed. -/
structure Balanced (xs : List α) : Prop where
  total : xs.countP b.closes = xs.countP b.opens
  guarded : b.Guarded xs

/-- The first bracket is not closed along the way: every beginning leaves something open. -/
def StaysOpen (xs : List α) : Prop :=
  ∀ n, 0 < n → (xs.take n).countP b.closes < (xs.take n).countP b.opens

/-- A single bracketed term: its first bracket is closed by its last element and not before. -/
structure Enclosed (xs : List α) : Prop where
  nonempty : xs ≠ []
  total : xs.countP b.closes = xs.countP b.opens
  inside : ∀ n, 0 < n → n < xs.length → (xs.take n).countP b.closes < (xs.take n).countP b.opens

variable {b} {xs ys : List α} {x y : α}

/-! ## Guarded lists -/

theorem guarded_nil : b.Guarded [] := by simp [Guarded]

theorem Guarded.append (hx : b.Guarded xs) (hy : b.Guarded ys) : b.Guarded (xs ++ ys) := by
  intro n
  have h₁ := hx n
  have h₂ := hy (n - xs.length)
  simp only [List.take_append, List.countP_append]
  omega

theorem Guarded.cons (hx : b.closes x = false) (hxs : b.Guarded xs) : b.Guarded (x :: xs) := by
  intro n
  cases n with
  | zero => simp
  | succ n =>
    have h := hxs n
    simp only [List.take_succ_cons, List.countP_cons, hx, Bool.false_eq_true, if_false]
    omega

/-- Behind an opening, what is guarded leaves the opening open. -/
theorem Guarded.staysOpen_cons (hx : b.opens x = true) (hxs : b.Guarded xs) :
    b.StaysOpen (x :: xs) := by
  intro n hn
  obtain ⟨n, rfl⟩ : ∃ m, n = m + 1 := ⟨n - 1, by omega⟩
  have h := hxs n
  simp only [List.take_succ_cons, List.countP_cons, hx, b.closes_of_opens x hx, if_true,
    Bool.false_eq_true, if_false]
  omega

/-! ## Balanced lists -/

theorem balanced_nil : b.Balanced [] := ⟨rfl, guarded_nil⟩

theorem Balanced.append (hx : b.Balanced xs) (hy : b.Balanced ys) : b.Balanced (xs ++ ys) :=
  ⟨by simp [List.countP_append, hx.total, hy.total], hx.guarded.append hy.guarded⟩

/-- A list without brackets is balanced. -/
theorem balanced_of_forall (h : ∀ x ∈ xs, b.opens x = false ∧ b.closes x = false) :
    b.Balanced xs := by
  have hc : ∀ zs : List α, (∀ x ∈ zs, x ∈ xs) → zs.countP b.closes = 0 := fun zs hz =>
    List.countP_eq_zero.2 fun x hx => by simp [(h x (hz x hx)).2]
  have ho : xs.countP b.opens = 0 := List.countP_eq_zero.2 fun x hx => by simp [(h x hx).1]
  refine ⟨by rw [hc xs fun _ h => h, ho], fun n => ?_⟩
  rw [hc (xs.take n) fun _ h => List.mem_of_mem_take h]
  exact Nat.zero_le _

/-- What is balanced makes one term between two brackets. -/
theorem Balanced.enclosed (hx : b.opens x = true) (hy : b.closes y = true)
    (hxs : b.Balanced xs) : b.Enclosed (x :: xs ++ [y]) := by
  have hcx := b.closes_of_opens x hx
  have hoy : b.opens y = false := by
    cases h : b.opens y with
    | false => rfl
    | true => rw [b.closes_of_opens y h] at hy; cases hy
  refine ⟨by simp, ?_, fun n hn hlt => ?_⟩
  · have := hxs.total
    simp [List.countP_append, hx, hy, hcx, hoy, this]
  · have htake : (x :: xs ++ [y]).take n = (x :: xs).take n :=
      List.take_append_of_le_length (by simp at hlt ⊢; omega)
    rw [htake]
    exact hxs.guarded.staysOpen_cons hx n hn

theorem Enclosed.balanced (h : b.Enclosed xs) : b.Balanced xs := by
  refine ⟨h.total, fun n => ?_⟩
  by_cases hn : 0 < n ∧ n < xs.length
  · exact Nat.le_of_lt (h.inside n hn.1 hn.2)
  · rcases Nat.eq_zero_or_pos n with rfl | hpos
    · simp
    · have htake : xs.take n = xs := List.take_of_length_le (by omega)
      rw [htake]
      exact Nat.le_of_eq h.total

end Brackets

end QueryCriteria
