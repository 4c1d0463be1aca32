/-!
# Texts told by their beginnings

What a text begins with can be told where it is a run of characters of one kind that the rest does
not go on with (`span_append_inj`), and where it is one of several texts none of which begins
another (`PrefixFree.append_inj`).
-/

namespace QueryCriteria

variable {α ι : Type}

/-- A list does not begin with anything of a kind. -/
def Stops (p : α → Bool) (xs : List α) : Prop := ∀ x ∈ xs.head?, p x = false

theorem stops_nil (p : α → Bool) : Stops p [] := nofun

theorem stops_cons {p : α → Bool} {x : α} {xs : List α} : Stops p (x :: xs) ↔ p x = false := by
  simp [Stops]

theorem stops_dropWhile (p : α → Bool) (xs : List α) : Stops p (xs.dropWhile p) := by
  intro x hx
  have h := List.head?_dropWhile_not p xs
  rw [Option.mem_def.1 hx] at h
  exact h

theorem takeWhile_append_of_stops {p : α → Bool} {xs ys : List α} (hxs : ∀ x ∈ xs, p x = true)
    (hys : Stops p ys) : (xs ++ ys).takeWhile p = xs := by
  rw [List.takeWhile_append_of_pos hxs]
  cases ys with
  | nil => simp
  | cons y ys => simp [stops_cons.1 hys]

theorem dropWhile_append_of_stops {p : α → Bool} {xs ys : List α} (hxs : ∀ x ∈ xs, p x = true)
    (hys : Stops p ys) : (xs ++ ys).dropWhile p = ys := by
  rw [List.dropWhile_append_of_pos hxs]
  cases ys with
  | nil => rfl
  | cons y ys => simp [stops_cons.1 hys]

/-- Where the rest stops, a run of one kind is as long as it can be. -/
theorem span_append_inj {p : α → Bool} {xs xs' ys ys' : List α} (hxs : ∀ x ∈ xs, p x = true)
    (hxs' : ∀ x ∈ xs', p x = true) (hys : Stops p ys) (hys' : Stops p ys')
    (h : xs ++ ys = xs' ++ ys') : xs = xs' ∧ ys = ys' := by
  constructor
  · rw [← takeWhile_append_of_stops hxs hys, h, takeWhile_append_of_stops hxs' hys']
  · rw [← dropWhile_append_of_stops hxs hys, h, dropWhile_append_of_stops hxs' hys']

/-- A list that goes on to begin behind others is made of these. -/
theorem subset_of_prefix_append {front xs : List α} (hfront : front ≠ [])
    (h : xs <+: front ++ xs) : xs ⊆ front := by
  rcases List.prefix_or_prefix_of_prefix h (List.prefix_append front xs) with hpre | ⟨rest, heq⟩
  · exact hpre.subset
  · have hshorter : rest.length < xs.length := by
      have hpos := List.length_pos_iff.2 hfront
      rw [← heq, List.length_append]
      omega
    rw [← heq] at h ⊢
    have hrest := subset_of_prefix_append hfront ((List.prefix_append_right_inj front).1 h)
    exact List.append_subset.2 ⟨List.Subset.refl front, hrest⟩
termination_by xs.length

/-- A number is no less than what its first digits make. -/
theorem le_ofDigitChars (cs : List Char) (n : Nat) : n ≤ Nat.ofDigitChars 10 cs n := by
  have hpow : 0 < 10 ^ cs.length := Nat.pow_pos (by decide)
  rw [Nat.ofDigitChars_eq_ofDigitChars_zero]
  exact Nat.le_add_right_of_le (Nat.le_mul_of_pos_left n hpow)

/-- No code of a list begins another. -/
def PrefixFree (code : ι → List α) (is : List ι) : Prop :=
  ∀ i ∈ is, ∀ j ∈ is, code i <+: code j → i = j

theorem PrefixFree.append_inj {code : ι → List α} {is : List ι} (h : PrefixFree code is) {i j : ι}
    (hi : i ∈ is) (hj : j ∈ is) {xs ys : List α} (heq : code i ++ xs = code j ++ ys) :
    i = j ∧ xs = ys := by
  have hij : i = j := by
    rcases List.prefix_or_prefix_of_prefix (List.prefix_append (code i) xs)
      (heq ▸ List.prefix_append (code j) ys) with hpre | hpre
    · exact h i hi j hj hpre
    · exact (h j hj i hi hpre).symm
  subst hij
  exact ⟨rfl, List.append_cancel_left heq⟩

end QueryCriteria
